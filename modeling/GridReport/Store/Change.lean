import GridReport.Store.Select

/-!
Statements that change tables.

All names are settled before the first row is touched. A change is made as a whole before the first
row that it gives back; if it is refused at a row, nothing is changed.
-/

namespace GridReport.Store

open Sql (Expr Query Body Item Source)

/-- What a change leaves: the database, and the rows that it gives back. -/
structure Changed where
  database : Database
  rows : List (List Cell)

structure Change where
  /-- The columns that it gives back. -/
  columns : List String
  make : View → Except Fault Changed

namespace Change

open Prepare

def tableOf (setting : Setting) (path : List Sql.Name) : Except Fault (Database × Table) := do
  let database ← setting.tables
  let written := String.intercalate "." (path.map Sql.Name.value)
  match (path.getLast?).bind fun name => database.table? name.value with
  | some table => return (database, table)
  | none => throw (.engine .statement ("no such table: " ++ written))

def columnOf? (table : Table) (name : String) : Option Nat :=
  table.columns.findIdx? fun column => Database.fold column.name == Database.fold name

/-- The columns that rows are put into, all of them if none are named. -/
def targets (table : Table) (columns : List Sql.Name) : Except Fault (List Nat) :=
  if columns.isEmpty then .ok (List.range table.columns.length)
  else columns.mapM fun column =>
    match columnOf? table column.value with
    | some position => .ok position
    | none =>
      .error (.engine .statement
        ("table " ++ table.name ++ " has no column named " ++ column.value))

/-- A whole row from cells for some of its columns; the other ones hold nothing. -/
def spread (table : Table) (positions : List Nat) (cells : List Cell) : List Cell :=
  (List.range table.columns.length).map fun i => ((positions.zip cells).lookup i).getD .null

def overRows (setting : Setting) (table : Table) (label : Option Sql.Name) : Setting :=
  let source := (label.map Sql.Name.value).getD table.name
  setting.enter ⟨tableFields table source, []⟩ refused

/-- The change of a table. What it gives back, if anything, is worked out for each row that it has
touched. -/
def ofRows (database : Database) (shown : List Shown)
    (touched : View → Except Fault (Table × List Row)) : Change :=
  ⟨shown.map Shown.name, fun view => do
    let (after, rows) ← touched view
    let told := if shown.isEmpty then [] else rows
    let given ← told.mapM fun row => valuesOf (view.enter row.cells) (shown.map Shown.worked)
    return ⟨database.setTable after, given⟩⟩

def insertion (setting : Setting) (path : List Sql.Name) (columns : List Sql.Name)
    (rows : Option Query) (returned : List Item) : Except Fault Change := do
  let (database, table) ← tableOf setting path
  let positions ← targets table columns
  let shown ← showAll (overRows setting table none) (tableFields table table.name) returned
  let insertAll (cells : List (List Cell)) : Except Fault (Table × List Row) :=
    cells.foldlM (fun (state : Table × List Row) row => do
      let entry ← state.1.entry row
      return (state.1.put entry, state.2 ++ [entry])) (table, [])
  match rows with
  | none => return ofRows database shown fun _ => insertAll [spread table [] []]
  | some query => do
    let plan ← prepareQuery setting query
    let given := plan.columns.length
    if given != positions.length then
      let text := if columns.isEmpty then
          "table " ++ table.name ++ " has " ++ toString positions.length ++ " columns but " ++
            toString given ++ " values were supplied"
        else toString given ++ " values for " ++ toString positions.length ++ " columns"
      throw (.engine .statement text)
    return ofRows database shown fun view => do
      insertAll ((← (plan.rows view).all).map (spread table positions))

def meets (condition : Option Worked) (view : View) (row : Row) : Except Fault Bool :=
  Prepare.meets condition (view.enter row.cells)

def changed (assigned : List (Nat × Worked)) (view : View) (row : Row) :
    Except Fault (List Cell) :=
  assigned.foldlM (fun cells (position, worked) => do
    return cells.set position (← worked.value (view.enter row.cells))) row.cells

/-- Sets cells of a table anew. -/
def update (setting : Setting) (path : List Sql.Name) (label : Option Sql.Name)
    (assigned : List (List Sql.Name)) (values : List Expr) (condition : Option Expr)
    (returned : List Item) : Except Fault Change := do
  let (database, table) ← tableOf setting path
  let inner := overRows setting table label
  let worked ← workAll inner values
  let positions ← assigned.mapM fun names =>
    let name := (names.getLast?.map Sql.Name.value).getD ""
    match columnOf? table name with
    | some position => Except.ok position
    | none => .error (.engine .statement ("no such column: " ++ name))
  let test ← workIn inner condition
  let source := (label.map Sql.Name.value).getD table.name
  let shown ← showAll inner (tableFields table source) returned
  return ofRows database shown fun view =>
    table.rows.foldlM (fun (state : Table × List Row) row => do
      let (current, touched) := state
      if ← meets test view row then
        let cells ← changed (positions.zip worked) view row
        let others := { current with rows := current.rows.filter fun r => r.key != row.key }
        let entry ← others.entry cells
        return (others.put entry, touched ++ [entry])
      else return state) (table, [])

/-- Takes rows of a table away. -/
def deletion (setting : Setting) (path : List Sql.Name) (label : Option Sql.Name)
    (condition : Option Expr) : Except Fault Change := do
  let (database, table) ← tableOf setting path
  let test ← workIn (overRows setting table label) condition
  return ofRows database [] fun view => do
    let kept ← table.rows.filterM fun row => return !(← meets test view row)
    return ({ table with rows := kept }, [])

def removal (setting : Setting) (tables : List (List Sql.Name)) (optional : Bool) :
    Except Fault Change := do
  let database ← setting.tables
  let after ← tables.foldlM (fun (current : Database) path => do
    let name := (path.getLast?.map Sql.Name.value).getD ""
    if (current.table? name).isSome then return current.dropTable name
    else if optional then return current
    else throw (.engine .statement ("no such table: " ++ name))) database
  return ⟨[], fun _ => return ⟨after, []⟩⟩

def ofBody? (setting : Setting) : Body → Option (Except Fault Change)
  | .insert table columns rows _ returned => some (insertion setting table columns rows returned)
  | .update (.table path _ label _ _) assigned values _ condition returned =>
    some (update setting path label assigned values condition returned)
  | .update _ _ _ _ _ _ => some (.error unsupported)
  | _ => none

end Change

end GridReport.Store
