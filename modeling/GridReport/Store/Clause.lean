import GridReport.Store.Aggregate
import GridReport.Store.Plan

/-!
The clauses of a query once the names in them are settled: conditions, sets, joins, groups and
items. -/

namespace GridReport.Store

open Sql (Expr Literal)

/-- Where a query is prepared: the tables of the database, unless they cannot be read, the common
tables, and the names in view. -/
structure Setting where
  tables : Except Fault Database
  common : List (String × Except Fault Plan)
  scope : Scope
  /-- The columns that the condition of the selection around sets equal. -/
  equated : List (List Sql.Name × List Sql.Name)

namespace Setting

def enter (setting : Setting) (level : Level) (summing : Summing) : Setting :=
  { setting with
    scope := { setting.scope.enter level with summing := summing }
    equated := [] }

/-- The setting with a rule for functions of many rows. -/
def withSumming (setting : Setting) (summing : Summing) : Setting :=
  { setting with scope := { setting.scope with summing := summing } }

/-- The setting without the names of the queries around. -/
def alone (setting : Setting) : Setting :=
  { setting with scope := { setting.scope with levels := setting.scope.levels.take 1 } }

def withoutColumns (setting : Setting) : Setting :=
  { setting with scope := { setting.scope with levels := [] } }

end Setting

/-- Joined sources: their columns, and their rows once all names in their conditions are settled. -/
structure Joined where
  fields : List Field
  rows : Except Fault (View → Rows (List Cell))

structure Shown where
  name : String
  label : Option String
  worked : Worked
  /-- It is the key of a table. -/
  isKey : Bool

namespace Prepare

/-- The refusal of a text that the database does not know. -/
def unsupported : Fault := .engine .statement "SQL logic error"

def withoutPlace : Fault → Fault
  | .statementAt text _ _ => .engine .statement text
  | other => other

/-- A number with the ending that makes it an ordinal. -/
def ordinal (n : Nat) : String :=
  let ending :=
    if n / 10 % 10 = 1 then "th"
    else
      match n % 10 with
      | 1 => "st"
      | 2 => "nd"
      | 3 => "rd"
      | _ => "th"
  toString n ++ ending

def bytesOf : List Char → List UInt8
  | high :: low :: rest => UInt8.ofNat (16 * digit high + digit low) :: bytesOf rest
  | _ => []
where
  /-- The value of a digit in base sixteen. -/
  digit (c : Char) : Nat := if c.isDigit then c.toNat - 48 else c.toLower.toNat - 87

/-- The number that digits in base sixteen denote, of which 64 bits count. -/
def baseSixteen (digits : List Char) : Int :=
  (Int64.ofNat (digits.foldl (fun value digit => 16 * value + bytesOf.digit digit) 0)).toInt

def numberOf (digits : String) : Cell := (Cell.numeric? digits).getD .null

def cellOf : Literal → Cell
  | .number digits => numberOf digits
  | .text value => .text value
  | .national value => .text value
  | .hex digits => .blob (bytesOf digits.toList)
  | .hexNumber digits => .integer (baseSixteen digits.toList)
  | .boolean value => Cell.ofTruth (some value)
  | .null => .null

/-- Two values combined by an operator. -/
def binary? (operator : String) (left right : Worked) : Option Worked :=
  let logic (combine : Option Bool → Option Bool → Option Bool) : Worked :=
    left.map₂ right fun x y => Cell.ofTruth (combine x.truth y.truth)
  match operator with
  | "+" => some (left.map₂ right (Cell.arithmetic (· + ·) (· + ·)))
  | "-" => some (left.map₂ right (Cell.arithmetic (· - ·) (· - ·)))
  | "*" => some (left.map₂ right (Cell.arithmetic (· * ·) (· * ·)))
  | "/" => some (left.map₂ right Cell.divide)
  | "%" => some (left.map₂ right Cell.remainder)
  | "||" => some (left.map₂ right Cell.concat)
  | "&" => some (left.map₂ right (Cell.bitwise (· &&& ·)))
  | "|" => some (left.map₂ right (Cell.bitwise (· ||| ·)))
  | "AND" => some (logic Cell.both)
  | "OR" => some (logic Cell.either)
  | "=" => some (left.compare right (· == .eq))
  | "==" => some (left.compare right (· == .eq))
  | "<>" => some (left.compare right (· != .eq))
  | "!=" => some (left.compare right (· != .eq))
  | "<" => some (left.compare right (· == .lt))
  | "<=" => some (left.compare right (· != .gt))
  | ">" => some (left.compare right (· == .gt))
  | ">=" => some (left.compare right (· != .lt))
  | _ => none

/-- The opposite of a truth, if it is asked for. -/
def negateIf (negated : Bool) (worked : Worked) : Worked :=
  if negated then worked.map fun cell => Cell.ofTruth (cell.truth.map (!·)) else worked

/-- The two values are the same, where nothing is the same as nothing. -/
def isSame (left right : Worked) : Worked :=
  let preference := Affinity.ofSides left.affinity right.affinity
  left.map₂ right fun x y =>
    Cell.ofTruth (some (Affinity.orderSides preference x y == .eq))

/-- What `IS` asks of a value. -/
def question? (asked : Sql.Truth) (operand : Worked) : Option Worked :=
  match asked with
  | .null => some (operand.map fun cell => Cell.ofTruth (some cell.isNull))
  | .isTrue => some (operand.map fun cell => Cell.ofTruth (some (cell.truth == some true)))
  | .isFalse => some (operand.map fun cell => Cell.ofTruth (some (cell.truth == some false)))
  | .unknown => none

/-- The value is one of a set. A set that holds nothing but other values leaves it open. -/
def membership (preference : Option Affinity) (value : Cell) (set : List Cell) : Option Bool :=
  if set.isEmpty then some false
  else if value.isNull then none
  else if set.any fun cell =>
      !cell.isNull && Affinity.orderSides preference value cell == .eq then some true
  else if set.any Cell.isNull then none
  else some false

/-- The result of the first condition that holds. -/
def firstThat (view : View) : List (Worked × Worked) → Option Worked → Except Fault Cell
  | [], none => .ok .null
  | [], some otherwise => otherwise.value view
  | (condition, result) :: rest, otherwise => do
    if (← condition.value view).truth = some true then result.value view
    else firstThat view rest otherwise

def valuesOf (view : View) (items : List Worked) : Except Fault (List Cell) :=
  items.mapM fun item => item.value view

/-- One of the expressions takes many rows. -/
def anySummed (items : List Worked) : Bool := items.any Worked.isSummed

def sumsOf (items : List Worked) : List (Option RowChoice) := items.flatMap Worked.sums

def applied (function : Function) (arguments : List Worked) : Worked :=
  ⟨none, sumsOf arguments, fun view => do function.apply (← valuesOf view arguments)⟩

/-- The condition, if there is one, holds in the view. -/
def meets (condition : Option Worked) (view : View) : Except Fault Bool :=
  match condition with
  | none => return true
  | some test => return (← test.value view).truth == some true

/-- A function of many rows applied to one value in each of them, or to the rows themselves. -/
def summed (function : Aggregate) (isDistinct : Bool) (argument condition : Option Worked) :
    Worked :=
  let given (view : View) : Except Fault (List (Option Cell)) :=
    (view.group.map view.moveTo).mapM fun inner => do
      if ← meets condition inner then
        match argument with
        | none => return some (Cell.integer 1)
        | some worked => return some (← worked.value inner)
      else return none
  let choice := function.wanted?.map fun better view => do
    return Aggregate.positionOf better (← given view)
  ⟨none, [choice], fun view => do
    let cells := (← given view).filterMap id
    function.apply (if isDistinct then Plan.firstsBy (fun cell => [cell]) cells else cells)⟩

/-- The columns that a condition sets equal, where all of it must hold. -/
def equalities : Expr → List (List Sql.Name × List Sql.Name)
  | .binary "AND" left right => equalities left ++ equalities right
  | .binary "=" (.column x _) (.column y _) => [(x, y)]
  | .binary "==" (.column x _) (.column y _) => [(x, y)]
  | .nested inner => equalities inner
  | _ => []

def fieldOf? (fields : List Field) (path : List Sql.Name) : Option Field :=
  (Scope.parts? path).bind fun (source, name) =>
    match Scope.lookUp fields source name with
    | .field _ field => some field
    | _ => none

/-- The key of one of the first fields is set equal to one of the second. -/
def seeksKey (keyed others : List Field) (pairs : List (List Sql.Name × List Sql.Name)) : Bool :=
  pairs.any fun (x, y) => oneWay x y || oneWay y x
where
  /-- The first name is a key, the second one of the others. -/
  oneWay (x y : List Sql.Name) : Bool :=
    ((fieldOf? keyed x).map Field.isKey).getD false && (fieldOf? others y).isSome

/-- The expression is the key of a table. -/
def isTableKey (fields : List Field) : Expr → Bool
  | .column path _ => ((fieldOf? fields path).map Field.isKey).getD false
  | .nested inner => isTableKey fields inner
  | _ => false

def declaredName? (scope : Scope) : Expr → Option String
  | .column path _ =>
    (scope.levels.findSome? fun level => fieldOf? level.fields path).map Field.name
  | .nested inner => declaredName? scope inner
  | _ => none

/-- The rows of two sources side by side. Each row of the outer source is taken with all rows of the
inner one. -/
def pairs (rightOuter : Bool) (left right : List (List Cell)) : List (List Cell × List Cell) :=
  if rightOuter then right.flatMap fun r => left.map fun l => (l, r)
  else left.flatMap fun l => right.map fun r => (l, r)

/-- Joins rows; `leftNothing` and `rightNothing` stand for a row that is missing. -/
def joinRows (kind : Sql.JoinKind) (rightOuter : Bool) (leftNothing rightNothing : List Cell)
    (meets : List Cell → Except Fault Bool) (left right : List (List Cell)) : Rows (List Cell) :=
  let keepsLeft := kind == .left || kind == .full
  let keepsRight := kind == .right || kind == .full
  if keepsLeft || keepsRight then .ofExcept do
    let tagged := right.zipIdx
    let matched ← left.mapM fun l => tagged.filterM fun (r, _) => meets (l ++ r)
    let rows := (left.zip matched).flatMap fun (l, found) =>
      if found.isEmpty then (if keepsLeft then [l ++ rightNothing] else [])
      else found.map fun (r, _) => l ++ r
    let used := matched.flatMap fun found => found.map (·.2)
    let unmatched := tagged.filter fun (_, position) => !used.contains position
    return .ofList
      (rows ++ (if keepsRight then unmatched.map fun (r, _) => leftNothing ++ r else []))
  else (Rows.ofList ((pairs rightOuter left right).map fun (l, r) => l ++ r)).filter meets

/-- A row of as many cells as there are fields, all of them nothing. -/
def nothing (fields : List Field) : List Cell := fields.map fun _ => .null

def tableFields (table : Table) (source : String) : List Field :=
  table.columns.zipIdx.map fun (column, position) =>
    ⟨source, column.name, some column.affinity, position == table.keyColumn, false⟩

/-- The fields of the rows of a query under a name. -/
def planFields (plan : Plan) (source : String) : List Field :=
  plan.columns.map fun column => ⟨source, column.name, column.affinity, false, false⟩

def ofPlan (plan : Plan) (source : String) : Joined := ⟨planFields plan source, .ok plan.rows⟩

/-- The rows of one row without columns, which a selection without sources has. -/
def unit : Joined := ⟨[], .ok fun _ => .ofList [[]]⟩

/-- A table or a common table as a source. -/
def namedSource (setting : Setting) (path : List Sql.Name) (label : Option Sql.Name) :
    Except Fault Joined := do
  let written := String.intercalate "." (path.map Sql.Name.value)
  let source (name : String) : String := (label.map Sql.Name.value).getD name
  let common : Option (String × Except Fault Plan) :=
    match path with
    | [name] =>
      setting.common.find? fun entry => Database.fold entry.1 == Database.fold name.value
    | _ => none
  match common, path.getLast? with
  | some (name, plan), _ => return ofPlan (← plan) (source name)
  | none, none => throw unsupported
  | none, some name =>
    let database ← setting.tables
    let inMain := path.length = 1 ||
      (path.dropLast.map fun n => Database.fold n.value) == ["main"]
    match if inMain then database.table? name.value else none with
    | some table =>
      return ⟨tableFields table (source table.name),
        .ok fun _ => .ofList (table.rows.map Row.cells)⟩
    | none => throw (.engine .statement ("no such table: " ++ written))

/-- Two sources joined. The names that are shared show up once. -/
def join (setting : Setting) (kind : Sql.JoinKind) (left right : Joined) (shared : List String)
    (conditionPairs : List (List Sql.Name × List Sql.Name))
    (condition : List Field → Except Fault (Option Worked)) : Except Fault Joined := do
  let sharedNames := if kind = .natural then
      (right.fields.map Field.name).filter fun name =>
        Scope.lookUp left.fields none name != .missing
    else shared
  let isShared (field : Field) : Bool :=
    sharedNames.any fun name => Database.fold name == Database.fold field.name
  let rightFields := right.fields.map fun field =>
    if isShared field then { field with isRepeated := true } else field
  let fields := left.fields ++ rightFields
  let same ← sharedNames.mapM fun name =>
    match Scope.lookUp left.fields none name, Scope.lookUp right.fields none name with
    | .field i x, .field j y =>
      return isSame (Scope.column 0 i x) (Scope.column 0 (left.fields.length + j) y)
    | _, _ =>
      throw (.engine .statement ("cannot join using column " ++ name ++
        " - column not present in both tables"))
  let plain := kind == .inner || kind == .natural
  let seeking := conditionPairs ++ setting.equated
  let rightOuter := plain && seeksKey left.fields right.fields seeking &&
    !seeksKey right.fields left.fields seeking
  let rows := do
    let leftRows ← left.rows
    let rightRows ← right.rows
    let tests := same ++ (← (condition fields).mapError withoutPlace).toList
    return fun (view : View) =>
      let meets (row : List Cell) : Except Fault Bool := do
        let cells ← valuesOf (view.enter row) tests
        return cells.all fun cell => cell.truth == some true
      Rows.ofExcept do
        return joinRows kind rightOuter (nothing left.fields) (nothing right.fields) meets
          (← (leftRows view).all) (← (rightRows view).all)
  return ⟨fields, rows⟩

/-- A source next to those in front of it, without a condition. -/
def beside (setting : Setting) (before : Option Joined) (source : Joined) : Except Fault Joined :=
  match before with
  | none => .ok source
  | some others => join setting .inner others source [] [] fun _ => .ok none

def starred (fields : List Field) (test : Field → Bool) : List Shown :=
  (fields.zipIdx.filter fun (field, _) => test field).map fun (field, position) =>
    ⟨field.name, none, Scope.column 0 position field, field.isKey⟩

/-- The whole number of 32 bits that a term of an order or of a grouping is. -/
def position? : Expr → Option Int
  | .literal (.number digits) =>
    (digits.toNat?.filter (· ≤ 2147483647)).map fun position => (position : Int)
  | .unary "-" operand => (position? operand).map fun position => -position
  | .unary "+" operand => position? operand
  | .nested inner => position? inner
  | .collate operand _ => position? operand
  | _ => none

/-- The item at a position, counted from 1. -/
def itemAt {α : Type} (items : List α) (clause : String) (term : Nat) (position : Int) :
    Except Fault α :=
  match if position < 1 then none else items[(position - 1).toNat]? with
  | some item => .ok item
  | none =>
    .error (.engine .statement (ordinal term ++ " " ++ clause ++
      " term out of range - should be between 1 and " ++ toString items.length))

def refused : Summing := .refused "misuse of aggregate function "

/-- The view of rows that are summed up. The row in it is the one that the last function chooses, or
the first. -/
def summary (fields : List Field) (sums : List (Option RowChoice)) (view : View)
    (group : List (List Cell)) : Except Fault View := do
  let inner : View := { view.enter (nothing fields) with group := group }
  match (sums.filterMap id).getLast? with
  | none => return inner.moveTo (group.head?.getD (nothing fields))
  | some choice => return inner.moveTo (group[← choice inner]?.getD (nothing fields))

/-- The outputs of a selection whose parts are settled. -/
def selected (fields : List Field) (rows : View → Rows (List Cell))
    (condition : Option Worked) (isSummed : Bool) (keys : List Worked) (having : Option Worked)
    (items : List Worked) (asked : Asked) (view : View) : Rows Output :=
  let shown (inner : View) : Except Fault (List Output) := do
    if ← meets having inner then return [⟨inner, ← valuesOf inner items⟩] else return []
  let read := if asked.backwards then (rows view).reverse else rows view
  let kept := read.filter fun row => meets condition (view.enter row)
  if isSummed then .ofExcept do
    let found ← kept.all
    let keyed ← found.mapM fun row => return (← valuesOf (view.enter row) keys, row)
    let directions := if asked.descending.length = keys.length then asked.descending else []
    let groups := if keys.isEmpty then [found] else Plan.groupsBy directions keyed
    let sums := sumsOf items ++ asked.sums ++ sumsOf having.toList
    return (Rows.ofList groups).flatMap fun group => do shown (← summary fields sums view group)
  else kept.flatMap fun row => shown (view.enter row)

end Prepare

end GridReport.Store
