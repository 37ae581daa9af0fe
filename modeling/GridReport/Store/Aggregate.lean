import GridReport.Store.Function

/-!
Functions of the cells of many rows.

Cells that are nothing do not count. A sum of integers is exact; a sum that a real takes part in
carries along what each step loses, and adds it at the end.
-/

namespace GridReport.Store

/-- A function of many cells. -/
inductive Aggregate where
  | count
  | sum
  | total
  | average
  | least
  | greatest
deriving Repr, DecidableEq

namespace Aggregate

def find? (name : String) (arguments : Nat) : Option Aggregate :=
  match name.map Char.toLower, arguments with
  | "count", 0 => some count
  | "count", 1 => some count
  | "sum", 1 => some sum
  | "total", 1 => some total
  | "avg", 1 => some average
  | "min", 1 => some least
  | "max", 1 => some greatest
  | _, _ => none

/-- The order in which the wanted cell comes last, for a function that wants one of them. -/
def wanted? : Aggregate → Option Ordering
  | least => some .lt
  | greatest => some .gt
  | _ => none

/-- The position of the cell that comes last in an order, the first of equal ones; that of the last
cell if all of them are nothing. A row that does not count has no cell here. -/
def positionOf (better : Ordering) (cells : List (Option Cell)) : Nat :=
  (cells.zipIdx.foldl (fun best entry =>
    match entry with
    | (none, _) => best
    | (some cell, position) =>
      if best.1.isNull || (!cell.isNull && cell.order best.1 == better) then (cell, position)
      else best) (Cell.null, 0)).2

/-- The names of the functions that have no other meaning. -/
def names : List String := ["count", "sum", "total", "avg", "min", "max"]

/-- A sum so far. -/
structure Running where
  count : Nat
  /-- The sum while all cells are integers. -/
  integers : Int
  /-- A real took part, or the integers left their range. -/
  approximate : Bool
  /-- The integers left their range, and no real came after that. -/
  overflown : Bool
  reals : Float
  /-- What the steps have lost. -/
  lost : Float

namespace Running

/-- The sum of nothing. -/
def start : Running := ⟨0, 0, false, false, 0.0, 0.0⟩

/-- The sum with a real, and what the step loses. -/
def addReal (running : Running) (value : Float) : Running :=
  let before := running.reals
  let after := before + value
  let lost := if value.abs < before.abs then (before - after) + value
    else (value - after) + before
  { running with reals := after, lost := running.lost + lost }

/-- The magnitude from which integers are added in two parts. -/
def wide (value : Int) : Bool := 4503599627370496 ≤ value.natAbs

def addInteger (running : Running) (value : Int) : Running :=
  if wide value then
    let small := Int.tmod value 16384
    (running.addReal (Float.ofInt (value - small))).addReal (Float.ofInt small)
  else running.addReal (Float.ofInt value)

/-- The sum of integers as the start of a sum of reals. -/
def approximated (running : Running) : Running :=
  if running.approximate then running
  else if wide running.integers then
    let small := Int.tmod running.integers 16384
    { running with
      approximate := true
      reals := Float.ofInt (running.integers - small)
      lost := Float.ofInt small }
  else
    { running with approximate := true, reals := Float.ofInt running.integers, lost := 0.0 }

def add (running : Running) (cell : Cell) : Running :=
  let counted := { running with count := running.count + 1 }
  match Affinity.readNumber cell with
  | .null => running
  | .integer value =>
    if running.approximate then counted.addInteger value
    else if Tick.InRange (running.integers + value) then
      { counted with integers := running.integers + value }
    else { counted.approximated with overflown := true }.addInteger value
  | other =>
    { counted.approximated with overflown := false }.addReal other.number.toFloat

/-- The sum of reals with what was lost. -/
def settled (running : Running) : Float :=
  if running.approximate then
    if running.lost.isFinite then running.reals + running.lost else running.reals
  else Float.ofInt running.integers

end Running

def apply (function : Aggregate) (cells : List Cell) : Except Fault Cell :=
  let present := cells.filter fun cell => !cell.isNull
  let running := present.foldl Running.add .start
  match function with
  | count => .ok (.integer present.length)
  | sum =>
    if present.isEmpty then .ok .null
    else if !running.approximate then .ok (.integer running.integers)
    else if running.overflown then .error Function.overflow
    else .ok (Cell.ofFloat running.settled)
  | total => .ok (Cell.ofFloat running.settled)
  | average =>
    if present.isEmpty then .ok .null
    else .ok (Cell.ofFloat (running.settled / Float.ofNat running.count))
  | least => .ok (Function.extreme .lt present)
  | greatest => .ok (Function.extreme .gt present)

end Aggregate

end GridReport.Store
