import GridReport.Sql.Lexer
import GridReport.Sql.Tree
import GridReport.Store.Operator
import GridReport.Store.Table

/-!
What the names in a statement stand for.

A name is looked for among the columns of the innermost query first, then among its aliases, then
further out. It is settled before any row is read, so a name that stands for nothing is refused even
where there are no rows.
-/

namespace GridReport.Store

/-- A column in view. -/
structure Field where
  /-- The name of the source that it comes from, empty if that has none. -/
  source : String
  name : String
  affinity : Option Affinity
  /-- The column is the key of its table. -/
  isKey : Bool
  /-- The column repeats one of another source and is found only with the name of its own. -/
  isRepeated : Bool
deriving Repr, DecidableEq

/-- What an expression is worked out from. -/
structure View where
  /-- The value of each parameter; one that is not given is nothing. -/
  values : String → Cell
  /-- The current row of each query, the innermost first. -/
  rows : List (List Cell)
  /-- The rows of the innermost query that are summed up together. -/
  group : List (List Cell)

namespace View

def enter (view : View) (row : List Cell) : View :=
  { view with rows := row :: view.rows, group := [] }

def moveTo (view : View) (row : List Cell) : View := { view with rows := row :: view.rows.drop 1 }

def leave (view : View) (depth : Nat) : View :=
  if depth = 0 then view else { view with rows := view.rows.drop depth, group := [] }

def cell (view : View) (depth position : Nat) : Cell :=
  ((view.rows[depth]?).bind fun row => row[position]?).getD .null

end View

/-- The position of one of the rows that are summed up. -/
abbrev RowChoice := View → Except Fault Nat

structure Worked where
  /-- The preference of a column; other expressions have none. -/
  affinity : Option Affinity
  /-- The functions of many rows in it. One that looks for a cell chooses the row of that cell. -/
  sums : List (Option RowChoice)
  value : View → Except Fault Cell

namespace Worked

/-- The value takes many rows. -/
def isSummed (worked : Worked) : Bool := !worked.sums.isEmpty

/-- An expression that is the same everywhere. -/
def constant (cell : Cell) : Worked := ⟨none, [], fun _ => .ok cell⟩

def map (operand : Worked) (f : Cell → Cell) : Worked :=
  ⟨none, operand.sums, fun view => return f (← operand.value view)⟩

def map₂ (left right : Worked) (f : Cell → Cell → Cell) : Worked :=
  ⟨none, left.sums ++ right.sums,
    fun view => return f (← left.value view) (← right.value view)⟩

/-- The truth of an ordering between two values, unless one of them is nothing. -/
def compare (left right : Worked) (holds : Ordering → Bool) : Worked :=
  let preference := Affinity.ofSides left.affinity right.affinity
  left.map₂ right fun x y =>
    if x.isNull || y.isNull then .null
    else Cell.ofTruth (some (holds (Affinity.orderSides preference x y)))

end Worked

/-- The columns and the aliases of a query. -/
structure Level where
  fields : List Field
  aliases : List (String × Worked)

/-- Whether a function of many rows may be used, and how it is refused. -/
inductive Summing where
  | allowed
  | refused (wording : String)
deriving Repr, DecidableEq

/-- Where a statement is prepared. -/
structure Scope where
  sql : String
  /-- The text as it is read: the first statement, with spaces for its comments. -/
  spelled : String
  levels : List Level
  summing : Summing

namespace Scope

/-- A refusal with its place in the statement. -/
def fault (scope : Scope) (text : String) (index : Nat) : Fault :=
  .statementAt text scope.sql (Sql.Lexer.offsetOf scope.spelled index)

def enter (scope : Scope) (level : Level) : Scope :=
  { scope with levels := level :: scope.levels }

def keyWords : List String := ["rowid", "oid", "_rowid_"]

/-- What a name finds. -/
inductive Found where
  | missing
  | several
  | field (position : Nat) (field : Field)
deriving Repr, DecidableEq

def findField (fields : List Field) (test : Field → Bool) : Found :=
  match fields.zipIdx.filter fun (field, _) => test field with
  | [] => .missing
  | [(field, position)] => .field position field
  | _ => .several

/-- Looks a name up among fields, with the name of a source or without. -/
def lookUp (fields : List Field) (source : Option String) (name : String) : Found :=
  let fits (field : Field) : Bool :=
    match source with
    | some wanted => Database.fold field.source == Database.fold wanted
    | none => !field.isRepeated
  let named (field : Field) : Bool := fits field && Database.fold field.name == Database.fold name
  match findField fields named with
  | .missing =>
    if keyWords.contains (Database.fold name) then
      findField fields fun field => fits field && field.isKey
    else .missing
  | found => found

def aliasOf? (level : Level) (name : String) : Option Worked :=
  (level.aliases.find? fun (label, _) => Database.fold label == Database.fold name).map (·.2)

def column (depth position : Nat) (field : Field) : Worked :=
  ⟨field.affinity, [], fun view => .ok (view.cell depth position)⟩

/-- Looks a name up from the innermost query outwards. -/
def search (source : Option String) (name : String) (depth : Nat) :
    List Level → Except Unit (Option Worked)
  | [] => .ok none
  | level :: outer =>
    match lookUp level.fields source name with
    | .field position field => .ok (some (column depth position field))
    | .several => .error ()
    | .missing =>
      match if source.isNone then aliasOf? level name else none with
      | some worked =>
        let sums := if depth = 0 then worked.sums else []
        .ok (some ⟨worked.affinity, sums, fun view => worked.value (view.leave depth)⟩)
      | none => search source name (depth + 1) outer

/-- The parts of a column name: its source, if it is given, and its own name. -/
def parts? : List Sql.Name → Option (Option String × String)
  | [name] => some (none, name.value)
  | [source, name] => some (some source.value, name.value)
  | [schema, source, name] =>
    if Database.fold schema.value == "main" then some (some source.value, name.value) else none
  | _ => none

def parameter (name : String) : Worked := ⟨none, [], fun view => .ok (view.values name)⟩

/-- What a column name stands for. A word that starts with a dollar sign is a parameter; a name in
double quotes that stands for nothing else is a text. -/
def resolve (scope : Scope) (path : List Sql.Name) (index : Nat) : Except Fault Worked :=
  let written := String.intercalate "." (path.map Sql.Name.value)
  let found : Except Unit (Option Worked) :=
    match path, parts? path with
    | [⟨value, none⟩], _ =>
      if value.startsWith "$" then .ok (some (parameter value))
      else search none value 0 scope.levels
    | _, some (source, name) => search source name 0 scope.levels
    | _, none => .ok none
  match found with
  | .ok (some worked) => .ok worked
  | .error () => .error (scope.fault ("ambiguous column name: " ++ written) index)
  | .ok none =>
    match path with
    | [⟨value, some '\x22'⟩] => .ok (.constant (.text value))
    | _ => .error (scope.fault ("no such column: " ++ written) index)

end Scope

end GridReport.Store
