import GridReport.Sql.ReadQuery

/-!
The queries behind the charts: built in, or read from a directory.
-/

namespace GridReport.Sql

inductive ChartQuery where
  | transferTimes
  | fileSizes
  | replicaLifetimes
  | transferTraffic
deriving Repr, DecidableEq

namespace ChartQuery

def all : List ChartQuery := [.transferTimes, .fileSizes, .replicaLifetimes, .transferTraffic]

def fileName : ChartQuery → String
  | .transferTimes => "transfer_times.sql"
  | .fileSizes => "file_sizes.sql"
  | .replicaLifetimes => "replica_lifetimes.sql"
  | .transferTraffic => "transfer_traffic.sql"

def builtIn : ChartQuery → String
  | .transferTimes =>
    "SELECT queuedAt, startedAt, finishedAt\nFROM Transfers\nORDER BY queuedAt;\n"
  | .fileSizes => "SELECT filesize\nFROM Files\nWHERE filesize IS NOT NULL;\n"
  | .replicaLifetimes =>
    "SELECT se.name, r.createdAt, COALESCE(r.deletedAt, r.expiredAt)\n" ++
      "FROM Replicas r\n" ++
      "JOIN StorageElements se ON se.id = r.storageElementId\n" ++
      "ORDER BY se.name, r.createdAt;\n"
  | .transferTraffic =>
    "SELECT se.name, t.finishedAt, t.traffic\n" ++
      "FROM Transfers t\n" ++
      "JOIN StorageElements se ON se.id = t.dstStorageElementId\n" ++
      "WHERE t.finishedAt IS NOT NULL\n" ++
      "ORDER BY se.name, t.finishedAt;\n"

end ChartQuery

/-- Where the queries come from. -/
inductive Catalog where
  | builtIn
  | directory (path : String)
deriving Repr, DecidableEq

namespace Catalog

/-- The queries in a directory, or the ones built in if none is named. -/
def make (files : Files) : Option String → Except Error Catalog
  | none => .ok .builtIn
  | some path =>
    if files.isDirectory path then .ok (.directory path)
    else .error (.configuration (.queryDirectory path))

def path? (catalog : Catalog) (query : ChartQuery) : Option String :=
  match catalog with
  | .builtIn => none
  | .directory path => some (Files.join path query.fileName)

/-- A query of a catalog. A directory must hold every query that is asked for. -/
def get (catalog : Catalog) (files : Files) (query : ChartQuery) : Except Error ReadQuery :=
  match catalog.path? query with
  | none => (ReadQuery.ofText query.builtIn).mapError .query
  | some path => ReadQuery.ofFile files path

end Catalog

end GridReport.Sql
