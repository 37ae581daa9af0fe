import GridReport.Store.Affinity

/-!
The order of cells: nothing comes before numbers, numbers before text, and text before bytes.

An integer and a real are compared by their exact values. Where the two sides of a comparison come
from columns, the preference of a column decides whether text is read as a number first.
-/

namespace GridReport.Store

namespace Cell

/-- Compares doubles that are numbers. -/
def orderReals (x y : Float) : Ordering :=
  if x < y then .lt else if y < x then .gt else .eq

/-- Compares an integer with a real. -/
def orderMixed (n : Int) (x : Float) : Ordering :=
  if x < -9223372036854775808.0 then .gt
  else if 9223372036854775808.0 ≤ x then .lt
  else
    match Ord.compare n x.toInt64.toInt with
    | .eq => orderReals (Float.ofInt n) x
    | unequal => unequal

def orderBytes : List UInt8 → List UInt8 → Ordering
  | [], [] => .eq
  | [], _ :: _ => .lt
  | _ :: _, [] => .gt
  | x :: xs, y :: ys =>
    match Ord.compare x y with
    | .eq => orderBytes xs ys
    | unequal => unequal

def rank : Cell → Nat
  | null => 0
  | integer _ => 1
  | real _ => 1
  | text _ => 2
  | blob _ => 3

def order : Cell → Cell → Ordering
  | integer x, integer y => Ord.compare x y
  | integer x, real y => orderMixed x y
  | real x, integer y => (orderMixed y x).swap
  | real x, real y => orderReals x y
  | text x, text y => Ord.compare x y
  | blob x, blob y => orderBytes x y
  | x, y => Ord.compare x.rank y.rank

/-- The cells are equal, where nothing equals nothing. -/
def same (x y : Cell) : Bool := x.order y == .eq

end Cell

/-- The cells of two rows are equal. -/
def sameCells (xs ys : List Cell) : Bool :=
  xs.length == ys.length && (xs.zip ys).all fun (x, y) => x.same y

/-- Compares rows by their first cells that differ. -/
def orderCells : List Cell → List Cell → Ordering
  | x :: xs, y :: ys => (x.order y).then (orderCells xs ys)
  | [], [] => .eq
  | [], _ => .lt
  | _, [] => .gt

/-- Compares rows by their first cells that differ; at the positions that are marked the greater cell
comes first. -/
def orderDirected : List Bool → List Cell → List Cell → Ordering
  | true :: rest, x :: xs, y :: ys => (y.order x).then (orderDirected rest xs ys)
  | false :: rest, x :: xs, y :: ys => (x.order y).then (orderDirected rest xs ys)
  | _, xs, ys => orderCells xs ys

namespace Affinity

/-- The preference by which two sides are compared; a side that is no column has none. -/
def ofSides : Option Affinity → Option Affinity → Option Affinity
  | some text, some text => some none
  | some none, some text => some none
  | some text, some none => some none
  | some none, some none => some none
  | some _, some _ => some numeric
  | some a, .none => some a
  | .none, other => other

def readNumber : Cell → Cell
  | .text value => (Cell.numeric? value).getD (.text value)
  | cell => cell

/-- Compares two sides by a preference. Where text is preferred, a number next to a text is one. -/
def orderSides (preference : Option Affinity) (x y : Cell) : Ordering :=
  match preference with
  | some numeric => (readNumber x).order (readNumber y)
  | some real => (readNumber x).order (readNumber y)
  | some text =>
    match x, y with
    | .text _, other => x.order (text.store other)
    | other, .text _ => (text.store other).order y
    | _, _ => x.order y
  | _ => x.order y

end Affinity

end GridReport.Store
