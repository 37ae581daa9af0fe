/-!
The range of simulated time and of counts: signed integers of 64 bits.

Timestamps are integers; an operation whose result may leave the range is written with `checked`,
which turns a result outside it into a defect, so no wrapped value can go on.
-/

namespace GridReport

/-- A run that stopped without an answer of its own. -/
inductive Defect where
  /-- An integer result outside its range. -/
  | overflow
  /-- An entry that the data does not hold. -/
  | missingEntry
  /-- A span of time too long to be written in days and hours. -/
  | longDuration
  /-- An axis with an end that is no number. -/
  | unorderedAxis
deriving Repr, DecidableEq

namespace Tick

def least : Int := -9223372036854775808

def greatest : Int := 9223372036854775807

/-- The integer is a timestamp. -/
def InRange (n : Int) : Prop := least ≤ n ∧ n ≤ greatest

instance (n : Int) : Decidable (InRange n) := inferInstanceAs (Decidable (_ ∧ _))

/-- The integer itself if it is in range. -/
def checked (n : Int) : Except Defect Int :=
  if InRange n then .ok n else .error .overflow

end Tick

end GridReport
