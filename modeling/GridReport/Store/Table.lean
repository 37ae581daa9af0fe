import GridReport.Store.Affinity

/-!
Tables of a database, and the rows in them.

Every row has an integer key, which a column of its table may show; the rows are kept in the order
of their keys. The tables that a simulation writes show it in their first column, `id`.
-/

namespace GridReport.Store

structure Column where
  name : String
  affinity : Affinity
deriving Repr, DecidableEq

structure Row where
  key : Int
  cells : List Cell

/-- A table. The cells of the column `keyColumn` are the keys of their rows; there is no such column
if the keys do not show. -/
structure Table where
  name : String
  columns : List Column
  keyColumn : Nat
  rows : List Row

structure Database where
  tables : List Table

namespace Table

/-- A table without rows whose first column is its key. -/
def ofColumns (name : String) (columns : List Column) : Table := ⟨name, columns, 0, []⟩

def place (row : Row) : List Row → List Row
  | [] => [row]
  | head :: tail => if row.key < head.key then row :: head :: tail else head :: place row tail

def nextKey (table : Table) : Int :=
  table.rows.foldl (fun next row => max next (row.key + 1)) 1

def hasKey (table : Table) (key : Int) : Bool := table.rows.any (·.key == key)

/-- The row that cells in column order make. A key that is missing is made up; a key that is no
integer or that is taken already is refused. -/
def entry (table : Table) (cells : List Cell) : Except Fault Row :=
  let stored := (table.columns.zip cells).map fun pair => pair.1.affinity.store pair.2
  let keyed (key : Int) : Except Fault Row :=
    if table.hasKey key then
      let column := (table.columns[table.keyColumn]?.map Column.name).getD ""
      .error (.engine .constraint
        ("UNIQUE constraint failed: " ++ table.name ++ "." ++ column))
    else .ok ⟨key, stored.set table.keyColumn (.integer key)⟩
  match stored[table.keyColumn]? with
  | some (.integer key) => keyed key
  | some .null => keyed table.nextKey
  | none => keyed table.nextKey
  | some _ => .error (.engine .mismatch "datatype mismatch")

def put (table : Table) (row : Row) : Table := { table with rows := place row table.rows }

/-- Adds a row of cells in column order. -/
def insert (table : Table) (cells : List Cell) : Except Fault Table :=
  (table.entry cells).map table.put

def insertAll (table : Table) (rows : List (List Cell)) : Except Fault Table :=
  rows.foldlM insert table

end Table

namespace Database

def empty : Database := ⟨[]⟩

/-- The letters of a name as they are compared; case does not matter. -/
def fold (name : String) : String := name.map Char.toLower

def table? (database : Database) (name : String) : Option Table :=
  database.tables.find? fun table => fold table.name == fold name

/-- Puts a table in the place of the one with its name, or adds it. -/
def setTable (database : Database) (table : Table) : Database :=
  if (database.table? table.name).isSome then
    ⟨database.tables.map fun old => if fold old.name == fold table.name then table else old⟩
  else ⟨database.tables ++ [table]⟩

def dropTable (database : Database) (name : String) : Database :=
  ⟨database.tables.filter fun table => fold table.name != fold name⟩

end Database

/-- The tables that a simulation writes, without rows. -/
def simulationTables : List Table :=
  let integers (names : List String) : List Column := names.map (⟨·, .numeric⟩)
  [.ofColumns "StorageElements" (integers ["id", "siteId"] ++ [⟨"name", .text⟩]),
    .ofColumns "Files" (integers ["id", "createdAt", "expiredAt", "filesize"]),
    .ofColumns "Replicas"
      (integers ["id", "fileId", "storageElementId", "createdAt", "expiredAt", "deletedAt"]),
    .ofColumns "Transfers"
      (integers ["id", "srcStorageElementId", "dstStorageElementId", "fileId", "srcReplicaId",
        "dstReplicaId", "queuedAt", "startedAt", "finishedAt", "traffic"])]

end GridReport.Store
