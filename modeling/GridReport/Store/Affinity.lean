import GridReport.Store.Cell

/-!
Affinities: the storage class that a column prefers.
-/

namespace GridReport.Store

/-- The preference of a column. -/
inductive Affinity where
  /-- Numbers in text become numbers, and reals integers where nothing is lost. -/
  | numeric
  /-- As `numeric`, but integers become reals. -/
  | real
  /-- Numbers become text. -/
  | text
  /-- Everything stays. -/
  | none
deriving Repr, DecidableEq

namespace Affinity

/-- A number as an integer where nothing is lost. -/
def preferInteger : Cell → Cell
  | .real value => Cell.narrow value
  | cell => cell

def preferReal : Cell → Cell
  | .integer value => .real (Float.ofInt value)
  | cell => cell

def store : Affinity → Cell → Cell
  | numeric, .text value => ((Cell.numeric? value).map preferInteger).getD (.text value)
  | numeric, cell => preferInteger cell
  | real, .text value => ((Cell.numeric? value).map preferReal).getD (.text value)
  | real, cell => preferReal cell
  | text, .integer value => .text (toString value)
  | text, .real value => .text (Cell.realText value)
  | _, cell => cell

end Affinity

end GridReport.Store
