import GridReport.Call
import GridReport.Store.Prepared

/-!
The engine at hand: databases that are values.

A database in a file is open for reading only; a file is looked at when a query needs its tables, so
opening one that is no database succeeds. A database in memory belongs to the connection and may be
changed by what is run on it. Nothing that is run changes a file, and no file comes up beside one,
as it would beside a database that keeps a log.
-/

namespace GridReport

/-- Where a database is. -/
inductive Home where
  /-- In the file at a place, for reading only. -/
  | file (place : Place)
  | memory (content : Store.Database)

namespace Home

def openFile (files : Files) (source path : String) : Except Store.Fault Home :=
  let refused : Store.Fault :=
    .engine .cannotOpen ("unable to open database file: " ++ source)
  match files.resolve path with
  | .error _ => .error refused
  | .ok place =>
    match files.at? place with
    | none => .error refused
    | some .directory => .error refused
    | some _ => .ok (.file place)

/-- Opens the database at a path or an address. -/
def connect (files : Files) (source : String) : Except Store.Fault Home :=
  match Store.Address.ofText? source with
  | some address =>
    match address.refusal? with
    | some fault => .error fault
    | none => if address.inMemory then .ok (.memory .empty) else openFile files source address.path
  | none => openFile files source source

/-- The tables of the database. A file without bytes is a database without tables. -/
def tables (home : Home) (files : Files) : Except Store.Fault Store.Database :=
  match home with
  | .memory content => .ok content
  | .file place =>
    match files.at? place with
    | some (.database content) => .ok content
    | some (.text "") => .ok .empty
    | none => .ok .empty
    | some _ => .error (.engine .notDatabase "file is not a database")

/-- The database can be changed. -/
def isWritable : Home → Bool
  | .memory _ => true
  | .file _ => false

end Home

/-- Runs a statement on a database: a change is made before the first row comes. -/
def Store.Prepared.answer (prepared : Store.Prepared) (values : String → Store.Cell)
    (world : Store.World Home) : Store.Answer (Store.World Home) :=
  let (rows, changed) := prepared.run values world.connection.isWritable
  let left :=
    match changed with
    | none => world
    | some content => { world with connection := .memory content }
  ⟨rows.items.map (·, left), rows.fault?, left⟩

instance : Engine where
  Connection := Home
  Statement := Store.Prepared
  connect := Home.connect
  prepare world sql := (Store.Prepared.ofText (world.connection.tables world.files) sql, world)
  parameters := Store.Prepared.parameters
  columns prepared := prepared.action.columns
  run := Store.Prepared.answer

namespace Session

def ofMemory (database : Store.Database) : Session := ⟨":memory:", .memory database⟩

def tables (session : Session) (files : Files) : Except Store.Fault Store.Database :=
  Home.tables session.home files

end Session

end GridReport
