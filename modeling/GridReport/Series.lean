import GridReport.Error

/-!
Events folded into bins of a fixed width that start at time zero.

One cursor walks over the events, which must be sorted by timestamp; every event is checked against
its predecessor as it is taken, whichever bin it falls into. The last bin ends right after the last
event, so it may be shorter than the others.
-/

namespace GridReport

/-- Something that happened at a point of simulated time, with a weight. -/
structure Event where
  timestamp : Int
  weight : Float

def Event.count (timestamp : Int) : Event := ⟨timestamp, 1.0⟩

/-- The weight between `start` and `finish`, the first included and the second not. -/
structure Bin where
  start : Int
  finish : Int
  weight : Float

def Bin.contains (bin : Bin) (timestamp : Int) : Bool :=
  bin.start ≤ timestamp && timestamp < bin.finish

/-- Consecutive bins of one interval. -/
structure Series where
  interval : Int
  bins : List Bin

namespace Series

def empty (interval : Int) : Series := ⟨interval, []⟩

def size (series : Series) : Nat := series.bins.length

def isEmpty (series : Series) : Bool := series.bins.isEmpty

def weights (series : Series) : List Float := series.bins.map Bin.weight

/-- The sum of all weights, left to right. A sum of nothing is negative zero, the neutral element
of addition. -/
def totalWeight (series : Series) : Float := series.weights.foldl (· + ·) (-0.0)

/-- The position of the first bin that covers the timestamp. -/
def binIndex? (series : Series) (timestamp : Int) : Option Nat :=
  series.bins.findIdx? (·.contains timestamp)

/-- An event may follow `previous` if its timestamp is neither negative nor smaller. -/
def checkOrder (event : Event) (previous : Int) : Except Error Unit :=
  if event.timestamp < 0 then
    .error (.invalidInput (.negativeTimestamp event.timestamp))
  else if event.timestamp < previous then
    .error (.invalidInput (.unsorted event.timestamp previous))
  else .ok ()

/-- What the cursor holds after a bin: the weight of the bin, the timestamp of the last event taken
and the events still ahead. -/
structure Filled where
  weight : Float
  previous : Int
  ahead : List Event

/-- Takes events off the front while they lie before `boundary`, or all of them if there is no
boundary, and adds up their weights. -/
def fill (boundary : Option Int) (weight : Float) (previous : Int) :
    List Event → Except Error Filled
  | [] => .ok ⟨weight, previous, []⟩
  | event :: ahead =>
    if boundary.all (event.timestamp < ·) then
      match checkOrder event previous with
      | .error error => .error error
      | .ok () => fill boundary (weight + event.weight) event.timestamp ahead
    else .ok ⟨weight, previous, event :: ahead⟩

def nextBoundary (boundary interval : Int) : Option Int :=
  if Tick.InRange (boundary + interval) then some (boundary + interval) else none

/-- How many boundaries up to `last` may still come. -/
def boundariesLeft (last : Int) : Option Int → Nat
  | none => 0
  | some boundary => (last + 1 - boundary).toNat

/-- The bins from `start` on. While the boundary is not past `last` a bin is closed at it; what is
left over goes into the final bin, which ends right after `last`. Closed bins are in `done`, newest
first. -/
def binsFrom (interval last : Int) (positive : 0 < interval) (start : Int) (boundary : Option Int)
    (previous : Int) (ahead : List Event) (done : List Bin) : Except Error (List Bin) :=
  match boundary with
  | some limit =>
    if _within : limit ≤ last then
      match fill (some limit) 0.0 previous ahead with
      | .error error => .error error
      | .ok filled =>
        binsFrom interval last positive limit (nextBoundary limit interval) filled.previous
          filled.ahead (⟨start, limit, filled.weight⟩ :: done)
    else finalBin start
  | none => finalBin start
termination_by boundariesLeft last boundary
decreasing_by
  simp only [nextBoundary]
  split <;> simp only [boundariesLeft] <;> omega
where
  /-- Closes the last bin over the events still ahead. -/
  finalBin (start : Int) : Except Error (List Bin) :=
    match fill none 0.0 previous ahead with
    | .error error => .error error
    | .ok filled => .ok (⟨start, last + 1, filled.weight⟩ :: done).reverse

def ofEvents (events : List Event) (interval : Int) : Except Error Series :=
  if positive : 0 < interval then
    match events.getLast? with
    | none => .error (.noData .noEvents)
    | some final =>
      if Tick.InRange (final.timestamp + 1) then
        match binsFrom interval final.timestamp positive 0 (some interval) 0 events [] with
        | .error error => .error error
        | .ok bins => .ok ⟨interval, bins⟩
      else .error (.invalidInput (.noFinalBin final.timestamp))
  else .error (.configuration (.interval interval))

end Series

end GridReport
