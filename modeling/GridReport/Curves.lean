import GridReport.Keyed
import GridReport.Overlap
import GridReport.Records

/-!
Curves: values over time, one curve per key.
-/

namespace GridReport

/-- Values over time. -/
abbrev Curve := List (Int × Float)

/-- Curves by key, in key order. -/
abbrev Curves := List (String × Curve)

namespace Curve

/-- Replaces every value by the sum of all values up to it. -/
def runningSum (total : Float) : Curve → Curve
  | [] => []
  | (time, value) :: rest => (time, total + value) :: runningSum (total + value) rest

/-- Points in the order of time; points of equal time keep their order. -/
def sortByTime (points : Curve) : Curve :=
  points.mergeSort fun a b => decide (a.1 ≤ b.1)

def cumulative (points : Curve) : Curve := runningSum 0.0 (sortByTime points)

/-- The corners of a staircase from `value` on: each value holds until the next point. -/
def stepsAfter (value : Float) : Curve → List (Float × Float)
  | [] => []
  | (time, next) :: rest =>
    (Float.ofInt time, value) :: (Float.ofInt time, next) :: stepsAfter next rest

/-- The corners of the staircase through the points. -/
def steps : Curve → List (Float × Float)
  | [] => []
  | (time, value) :: rest => (Float.ofInt time, value) :: stepsAfter value rest

/-- The value of the point before a position. There is none before the first position. -/
def valueBefore (points : Curve) (position : Nat) : Except Defect Float :=
  if position = 0 then .error .overflow
  else
    match points[position - 1]? with
    | some point => .ok point.2
    | none => .error .missingEntry

/-- Puts the point at a position on the line: after the first point the value before it is held up
to its time, and then comes the point. -/
def extend (points : Curve) (drawn : List (Float × Float)) (entry : (Int × Float) × Nat) :
    Except Defect (List (Float × Float)) := do
  let time := Float.ofInt entry.1.1
  let reached ←
    if 0 < entry.2 then
      (valueBefore points entry.2).map fun held => drawn ++ [(time, held)]
    else .ok drawn
  return reached ++ [(time, entry.1.2)]

/-- The line through the corners, made position by position. -/
def trace (points : Curve) : Except Defect (List (Float × Float)) :=
  points.zipIdx.foldlM (extend points) []

def line (points : Curve) : List (Float × Float) :=
  points.map fun point => (Float.ofInt point.1, point.2)

def ofOverlaps (points : List OverlapPoint) : Curve :=
  points.map fun point => (point.time, Float.ofInt point.count)

end Curve

namespace Curves

/-- The running sums of each key's samples, in the order of the keys. -/
def cumulative {κ : Type} [BEq κ] [LE κ] [DecidableLE κ] (samples : List (κ × Int × Float)) :
    List (κ × Curve) :=
  (Keyed.group (·.1) samples).map fun group =>
    (group.1, Curve.cumulative (group.2.map (·.2)))

/-- The bytes moved to each storage element up to each time. -/
def traffic (rows : List TransferTraffic) : Curves :=
  cumulative (rows.map fun row => (row.storageElement, row.finishedAt, row.traffic))

end Curves

end GridReport
