import GridReport.Error

/-!
How many intervals overlap each of their end points.

A sweep over the sorted distinct end points: `delta` is added where an interval starts and taken
off at the end point right after the one where it ends, so an interval still counts at its end.
Then running sums give the counts. All sums are checked.
-/

namespace GridReport

/-- A span of time, both ends included, that counts `delta` times. -/
structure Interval where
  start : Int
  finish : Int
  delta : Int
deriving Repr, DecidableEq

structure OverlapPoint where
  time : Int
  count : Int
deriving Repr, DecidableEq

namespace Overlap

/-- The distinct starts and ends, ascending. -/
def coordinates (intervals : List Interval) : List Int :=
  ((intervals.flatMap fun i => [i.start, i.finish]).mergeSort
    (fun a b => decide (a ≤ b))).eraseReps

/-- Halves the stretch from `low` to `high` until it is empty; it ends at the first position whose
coordinate is not below `value`. -/
def bisect (coords : Array Int) (value : Int) (low high : Nat) : Nat :=
  if _stretch : low < high then
    let middle := (low + high) / 2
    match coords[middle]? with
    | some there =>
      if there < value then bisect coords value (middle + 1) high
      else bisect coords value low middle
    | none => bisect coords value low middle
  else low
termination_by high - low

def position (coords : Array Int) (value : Int) : Nat := bisect coords value 0 coords.size

/-- Adds `change` to one entry of the table of differences. -/
def addAt (table : Array Int) (index : Nat) (change : Int) : Except Defect (Array Int) :=
  match table[index]? with
  | none => .error .missingEntry
  | some old =>
    match Tick.checked (old + change) with
    | .error defect => .error defect
    | .ok sum => .ok (table.setIfInBounds index sum)

def enter (coords : Array Int) (table : Array Int) (interval : Interval) :
    Except Defect (Array Int) :=
  match addAt table (position coords interval.start) interval.delta with
  | .error defect => .error defect
  | .ok opened => addAt opened (position coords interval.finish + 1) (-interval.delta)

/-- Running sums of the differences, paired with their times. -/
def accumulate (count : Int) : List (Int × Int) → Except Defect (List OverlapPoint)
  | [] => .ok []
  | (time, change) :: rest =>
    match Tick.checked (count + change) with
    | .error defect => .error defect
    | .ok sum =>
      match accumulate sum rest with
      | .error defect => .error defect
      | .ok points => .ok (⟨time, sum⟩ :: points)

/-- The table of differences; one extra entry takes what ends at the last coordinate. -/
def differences (coords : Array Int) (intervals : List Interval) : Except Defect (Array Int) :=
  intervals.foldlM (enter coords) (Array.replicate (coords.size + 1) 0)

def count (intervals : List Interval) : Except Failure (List OverlapPoint) :=
  match intervals.find? (fun i => i.finish < i.start) with
  | some bad => .error (.refused (.invalidInput (.reversedInterval bad.start bad.finish)))
  | none =>
    let coords := coordinates intervals
    orBreak do
      let table ← differences coords.toArray intervals
      accumulate 0 (coords.zip table.toList)

def countByKey (groups : List (String × List Interval)) :
    Except Failure (List (String × List OverlapPoint)) :=
  groups.mapM fun group => do
    let points ← count group.2
    return (group.1, points)

end Overlap

end GridReport
