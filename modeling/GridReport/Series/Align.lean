import GridReport.Series

/-!
Two series of one interval on a shared axis.

The shorter series is padded with zero weights; a bin that both have ends where the later of the
two ends, so a shortened final bin widens to the full bin of the longer series.
-/

namespace GridReport

/-- Two lists of weights over one axis, whose bins carry no weight of their own. -/
structure AlignedSeries where
  interval : Int
  axis : List Bin
  first : List Float
  second : List Float

namespace AlignedSeries

def size (aligned : AlignedSeries) : Nat := aligned.axis.length

def isEmpty (aligned : AlignedSeries) : Bool := aligned.axis.isEmpty

def starts (aligned : AlignedSeries) : List Int := aligned.axis.map Bin.start

/-- Bin by bin: the shared bin and the two weights. -/
def pair : List Bin → List Bin → List (Bin × Float × Float)
  | [], [] => []
  | a :: first, [] => (⟨a.start, a.finish, 0.0⟩, a.weight, 0.0) :: pair first []
  | [], b :: second => (⟨b.start, b.finish, 0.0⟩, 0.0, b.weight) :: pair [] second
  | a :: first, b :: second =>
    (⟨a.start, max a.finish b.finish, 0.0⟩, a.weight, b.weight) :: pair first second

def ofSeries (first second : Series) : Except Error AlignedSeries :=
  if first.interval = second.interval then
    let pairs := pair first.bins second.bins
    .ok ⟨first.interval, pairs.map (·.1), pairs.map (·.2.1), pairs.map (·.2.2)⟩
  else .error (.configuration (.intervals first.interval second.interval))

end AlignedSeries

end GridReport
