import GridReport.Store.Rows
import GridReport.Store.Scope

/-!
Rows that queries give: distinct ones, sets of them, their order, and a part of them.
-/

namespace GridReport.Store

/-- A column of the rows that a query gives. -/
structure ResultColumn where
  name : String
  affinity : Option Affinity
deriving Repr, DecidableEq

/-- A query that is ready to be run. -/
structure Plan where
  columns : List ResultColumn
  rows : View → Rows (List Cell)

/-- A row that a query gives, and the view that it was worked out in. -/
structure Output where
  view : View
  cells : List Cell

/-- What an order asks of the selection that it puts in order. -/
structure Asked where
  /-- The functions of many rows in its terms. -/
  sums : List (Option RowChoice)
  /-- The rows of the table are read from the last to the first. -/
  backwards : Bool
  /-- Which of its terms are descending. -/
  descending : List Bool

/-- A query before its rows are ordered. Where they come from a selection, `scope` is where the
terms of the order are looked up. -/
structure Stage where
  columns : List ResultColumn
  /-- The names of the columns in each of the queries that are put together. -/
  names : List (List String)
  scope : Option Scope
  /-- Where the rows are those of one table, the positions of the columns that show its key. -/
  keyShown : Option (List Nat)
  /-- The rows, once all names are settled. -/
  outputs : Except Fault (Asked → View → Rows Output)

namespace Plan

def firstsBy {α : Type} (key : α → List Cell) (rows : List α) : List α :=
  (rows.foldl (fun kept row =>
    if kept.any fun other => sameCells (key other) (key row) then kept else row :: kept) []).reverse

def sortedSet (rows : List (List Cell)) : List (List Cell) :=
  firstsBy id (rows.mergeSort fun a b => orderCells a b != .gt)

def holds (rows : List (List Cell)) (row : List Cell) : Bool := rows.any (sameCells row)

/-- Puts the rows of two queries together. Only a union that keeps all rows gives some of them
before it has seen all. -/
def combine (operator : Sql.SetOperator) (all : Bool) (left right : Rows (List Cell)) :
    Rows (List Cell) :=
  if operator = .union && all then left.append right
  else .ofExcept do
    let lefts ← left.all
    let rights ← right.all
    return .ofList (sortedSet
      (match operator with
        | .union => lefts ++ rights
        | .except => lefts.filter fun row => !holds rights row
        | .intersect => lefts.filter (holds rights)))

/-- The rows in groups of the same key, in the order of the keys. The parts of a key follow the
directions of an order with as many terms. -/
def groupsBy {α : Type} (descending : List Bool) (rows : List (List Cell × α)) : List (List α) :=
  let sorted := rows.mergeSort fun a b => orderDirected descending a.1 b.1 != .gt
  (sorted.splitBy fun a b => sameCells a.1 b.1).map fun group => group.map (·.2)

/-- A term of an order. -/
structure Key where
  value : Output → Except Fault Cell
  descending : Bool
  /-- Rows in which the value is nothing come first. -/
  nullsFirst : Bool
  /-- The functions of many rows in it. -/
  sums : List (Option RowChoice)
  /-- The value is the key of the table, in whose order the rows are read. -/
  isTableKey : Bool

namespace Key

/-- The rows are read in the order of the terms. -/
def areRead (keys : List Key) : Bool := (keys.head?.map isTableKey).getD true

def asked (keys : List Key) : Asked :=
  ⟨keys.flatMap sums, (keys.head?.map fun key => key.isTableKey && key.descending).getD false,
    keys.map descending⟩

/-- Compares two values of a term. -/
def order (key : Key) (x y : Cell) : Ordering :=
  match x.isNull, y.isNull with
  | true, true => .eq
  | true, false => if key.nullsFirst then .lt else .gt
  | false, true => if key.nullsFirst then .gt else .lt
  | false, false => if key.descending then y.order x else x.order y

/-- Compares two rows by the first term that tells them apart. -/
def orderAll : List Key → List Cell → List Cell → Ordering
  | key :: keys, x :: xs, y :: ys => (key.order x y).then (orderAll keys xs ys)
  | _, _, _ => .eq

end Key

/-- Orders rows by terms; rows that no term tells apart stay as they are. -/
def orderBy (keys : List Key) (outputs : List Output) : Except Fault (List (List Cell)) := do
  let valued ← outputs.mapM fun output => do
    return (← keys.mapM fun key => key.value output, output.cells)
  return (valued.mergeSort fun a b => Key.orderAll keys a.1 b.1 != .gt).map (·.2)

/-- The whole number that a limit must be. -/
def rowCount (cell : Cell) : Except Fault Int :=
  match Affinity.numeric.store cell with
  | .integer value => .ok value
  | _ => .error (.engine .mismatch "datatype mismatch")

end Plan

end GridReport.Store
