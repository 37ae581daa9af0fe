import GridReport.Error

/-!
Histograms of values over equally wide bins.

The construction is written over any numbers with the operations of `Measure`. The program runs it
over doubles, where every step rounds; over rationals the same text is exact.
-/

namespace GridReport

/-- The numbers a histogram can be built over. -/
class Measure (α : Type) where
  ofCount : Nat → α
  half : α
  add : α → α → α
  sub : α → α → α
  mul : α → α → α
  div : α → α → α
  least : α → α → α
  greatest : α → α → α
  /-- The two numbers are equal. -/
  same : α → α → Bool
  isFinite : α → Bool
  /-- The whole part, zero for what is negative or no number. That of a double is bounded above. -/
  whole : α → Nat

/-- Doubles. The lesser and the greater of two equal numbers is the second. -/
instance : Measure Float where
  ofCount := Float.ofNat
  half := 0.5
  add := (· + ·)
  sub := (· - ·)
  mul := (· * ·)
  div := (· / ·)
  least x y := if x < y then x else y
  greatest x y := if y < x then x else y
  same x y := x == y
  isFinite := Float.isFinite
  whole x := x.toUInt64.toNat

/-- Bin edges and the counts between them. -/
structure Histogram (α : Type) where
  edges : List α
  counts : List Nat

namespace Histogram

/-- Why there is no histogram. -/
inductive Refusal (α : Type) where
  | noBins
  | noValues
  | wideRange (low high : α)

variable {α : Type} [Measure α]

/-- The least and the greatest value, half a unit apart from the value if there is only one. -/
def bounds (head : α) (tail : List α) : α × α :=
  let low := tail.foldl Measure.least head
  let high := tail.foldl Measure.greatest head
  if Measure.same low high then (Measure.sub low Measure.half, Measure.add high Measure.half)
  else (low, high)

/-- The edges: the multiples of the width from `low`, and `high` itself. -/
def edgesOf (low high width : α) (bins : Nat) : List α :=
  (List.range bins).map (fun i => Measure.add low (Measure.mul width (Measure.ofCount i)))
    ++ [high]

/-- The bin of a value; what lies at or past the last edge goes into the last bin. -/
def binOf (low width : α) (bins : Nat) (value : α) : Nat :=
  min (Measure.whole (Measure.div (Measure.sub value low) width)) (bins - 1)

def countsOf (low width : α) (bins : Nat) (values : List α) : List Nat :=
  (values.foldl (fun counts value => counts.modify (binOf low width bins value) (· + 1))
    (Array.replicate bins 0)).toList

def build (values : List α) (bins : Nat) : Except (Refusal α) (Histogram α) :=
  if bins = 0 then .error .noBins
  else
    match values.filter Measure.isFinite with
    | [] => .error .noValues
    | head :: tail =>
      let (low, high) := bounds head tail
      if Measure.isFinite (Measure.sub high low) then
        let width := Measure.div (Measure.sub high low) (Measure.ofCount bins)
        .ok ⟨edgesOf low high width bins, countsOf low width bins (head :: tail)⟩
      else .error (.wideRange low high)

def Refusal.error : Refusal Float → Error
  | .noBins => .configuration .noBins
  | .noValues => .noData .noValues
  | .wideRange low high => .invalidInput (.wideRange low high)

def ofValues (values : List Float) (bins : Nat) : Except Error (Histogram Float) :=
  (build values bins).mapError Refusal.error

def skipped (values : List Float) : Nat := (values.filter fun value => !value.isFinite).length

def greatestCount : Nat := 18446744073709551615

/-- The number of values in all bins. -/
def total {α : Type} (histogram : Histogram α) : Except Defect Nat :=
  histogram.counts.foldlM
    (fun sum count => if sum + count ≤ greatestCount then .ok (sum + count) else .error .overflow) 0

def maxCount {α : Type} (histogram : Histogram α) : Nat := histogram.counts.foldl max 0

end Histogram

end GridReport
