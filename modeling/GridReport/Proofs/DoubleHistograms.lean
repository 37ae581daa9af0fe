import GridReport.Proofs.Tallies
import Mathlib.Algebra.Order.Ring.Int
import Mathlib.Data.Prod.Lex

/-!
Histograms of doubles.

The finite doubles are in order by sign, exponent and mantissa, so a list of them has a least and a
greatest one. That is all that is known of their arithmetic here: differences, widths and quotients
are rounded, and may be zero, infinite or no number at all.

* `compare_eq`, `le_iff`, `lt_iff` — the comparison of finite doubles is that of their places.
* `ofValues_decides` — the lists of values that have a histogram, what the others are refused for,
  and what a histogram holds.
-/

namespace GridReport

/-! ### The order of finite doubles -/

namespace FiniteOrder

open Float.Model

/-- The place of a finite double: its sign, then its exponent and its mantissa, both counted
downwards below zero. -/
def place : UnpackedFloat → ℤ ×ₗ ℤ ×ₗ ℤ
  | .finite .negative mantissa exponent _ => toLex (-1, toLex (-exponent, -mantissa))
  | .finite .positive mantissa exponent _ => toLex (1, toLex (exponent, mantissa))
  | _ => toLex (0, toLex (0, 0))

theorem compare_neg (a b : ℤ) : compare (-a) (-b) = (compare a b).swap := by
  rw [Int.compare_swap]
  simp only [compare, compareOfLessAndEq]
  grind

theorem compare_natCast (a b : ℕ) : compare (a : ℤ) b = compare a b := by
  simp only [compare, compareOfLessAndEq]
  grind

/-- Two places of one sign compare by exponent, and then by mantissa. -/
theorem compare_one_sign (sign a b a' b' : ℤ) :
    compare (toLex (sign, toLex (a, b)) : ℤ ×ₗ ℤ ×ₗ ℤ) (toLex (sign, toLex (a', b'))) =
      (compare a a').then (compare b b') := by
  simp [Prod.Lex.compare_def, compareLex, compareOn]

/-- Finite doubles are compared by their places among all doubles. -/
theorem compare_eq {x y : UnpackedFloat} (hx : x.isFinite) (hy : y.isFinite) :
    x.compare y = some (compare (place x) (place y)) := by
  cases x with
  | notANumber => cases hx
  | infinity sign => cases hx
  | zero sign =>
      cases y with
      | notANumber => cases hy
      | infinity sign' => cases hy
      | zero sign' => rfl
      | finite sign' mantissa' exponent' positive' => cases sign' <;> rfl
  | finite sign mantissa exponent positive =>
      cases y with
      | notANumber => cases hy
      | infinity sign' => cases hy
      | zero sign' => cases sign <;> rfl
      | finite sign' mantissa' exponent' positive' =>
          cases sign with
          | negative =>
              cases sign' with
              | negative =>
                  change
                    some ((compare exponent exponent').then (compare mantissa mantissa')).swap =
                      some (compare (toLex (-1, toLex (-exponent, -mantissa)) : ℤ ×ₗ ℤ ×ₗ ℤ)
                        (toLex (-1, toLex (-exponent', -mantissa'))))
                  rw [compare_one_sign, Ordering.swap_then, compare_neg, compare_neg,
                    compare_natCast]
              | positive => rfl
          | positive =>
              cases sign' with
              | negative => rfl
              | positive =>
                  change some ((compare exponent exponent').then (compare mantissa mantissa')) =
                    some (compare (toLex (1, toLex (exponent, mantissa)) : ℤ ×ₗ ℤ ×ₗ ℤ)
                      (toLex (1, toLex (exponent', mantissa'))))
                  rw [compare_one_sign, compare_natCast]

/-- The place of a double. -/
def placeOf (x : Float) : ℤ ×ₗ ℤ ×ₗ ℤ := place x.toModel.unpack

variable {x y : Float}

/-- One finite double is below another where its place is. -/
theorem lt_iff (hx : x.isFinite) (hy : y.isFinite) : x < y ↔ placeOf x < placeOf y := by
  have compared : x < y ↔ x.toModel.unpack.lt y.toModel.unpack :=
    decide_eq_true_iff (p := x.toModel < y.toModel)
  rw [compared, UnpackedFloat.lt, compare_eq hx hy, beq_iff_eq, Option.some.injEq,
    compare_lt_iff_lt]
  rfl

theorem le_iff (hx : x.isFinite) (hy : y.isFinite) : x ≤ y ↔ placeOf x ≤ placeOf y := by
  have compared : x ≤ y ↔ x.toModel.unpack.le y.toModel.unpack :=
    decide_eq_true_iff (p := x.toModel ≤ y.toModel)
  rw [compared, UnpackedFloat.le, compare_eq hx hy, Option.any_some, Ordering.isLE_iff_ne_gt]
  exact compare_le_iff_le

theorem le_refl (hx : x.isFinite) : x ≤ x := (le_iff hx hx).mpr le_rfl

theorem le_of_lt (hx : x.isFinite) (hy : y.isFinite) (less : x < y) : x ≤ y :=
  (le_iff hx hy).mpr ((lt_iff hx hy).mp less).le

theorem le_of_not_lt (hx : x.isFinite) (hy : y.isFinite) (not_less : ¬ x < y) : y ≤ x :=
  (le_iff hy hx).mpr (not_lt.mp fun less => not_less ((lt_iff hx hy).mpr less))

/-- The order of finite doubles is transitive; NaN, which is not finite, would break it. -/
theorem le_trans {z : Float} (hx : x.isFinite) (hy : y.isFinite) (hz : z.isFinite) (hxy : x ≤ y)
    (hyz : y ≤ z) : x ≤ z := by
  rw [le_iff hx hy] at hxy
  rw [le_iff hy hz] at hyz
  exact (le_iff hx hz).mpr (hxy.trans hyz)

/-- The better of two is chosen by a test that tells it. -/
theorem choice_of_two (better : Float → Float → Prop) {test : Prop} [Decidable test]
    (first : better x x) (second : better y y) (passed : test → better x y)
    (failed : ¬ test → better y x) :
    ((if test then x else y) = x ∨ (if test then x else y) = y) ∧
      better (if test then x else y) x ∧ better (if test then x else y) y := by
  by_cases h : test
  · rw [if_pos h]
    exact ⟨.inl rfl, first, passed h⟩
  · rw [if_neg h]
    exact ⟨.inr rfl, failed h, second⟩

end FiniteOrder

instance : Measure.Ordered Float where
  refl _ hx := FiniteOrder.le_refl hx
  trans _ _ _ hx hy hz := FiniteOrder.le_trans hx hy hz
  least_of_two _ _ hx hy :=
    FiniteOrder.choice_of_two (· ≤ ·) (FiniteOrder.le_refl hx) (FiniteOrder.le_refl hy)
      (FiniteOrder.le_of_lt hx hy) (FiniteOrder.le_of_not_lt hx hy)
  greatest_of_two _ _ hx hy :=
    FiniteOrder.choice_of_two (fun x y => y ≤ x) (FiniteOrder.le_refl hx)
      (FiniteOrder.le_refl hy) (FiniteOrder.le_of_lt hy hx) (FiniteOrder.le_of_not_lt hy hx)

namespace Histogram

/-! ### Histograms -/

theorem ofValues_noBins (values : List Float) :
    ofValues values 0 = .error (.configuration .noBins) := rfl

variable {values : List Float} {bins : Nat}

/-- Where no value is finite, there is nothing to count. -/
theorem ofValues_noValues (positive : 0 < bins) (none_finite : values.filter Float.isFinite = []) :
    ofValues values bins = .error (.noData .noValues) := by
  rw [ofValues, build_noValues positive none_finite]
  rfl

/-- Where some value is finite, only the width of their range can be refused. -/
theorem ofValues_of_values (positive : 0 < bins) {head : Float} {tail : List Float}
    (finite : values.filter Float.isFinite = head :: tail) :
    ofValues values bins =
      if ((bounds head tail).2 - (bounds head tail).1).isFinite then
        .ok (between (head :: tail) (bounds head tail).1 (bounds head tail).2 bins)
      else .error (.invalidInput (.wideRange (bounds head tail).1 (bounds head tail).2)) := by
  rw [ofValues, build_of_values positive finite]
  change Except.mapError _ (if ((bounds head tail).2 - (bounds head tail).1).isFinite then _ else _)
    = _
  split
  · rfl
  · rfl

/-- Values that are not finite make no difference. -/
theorem ofValues_congr {others : List Float}
    (same : others.filter Float.isFinite = values.filter Float.isFinite) :
    ofValues others bins = ofValues values bins := by
  rw [ofValues, ofValues, build_congr same]

/-- A number of bins is refused only if it is zero, and then in front of all else. -/
theorem ofValues_noBins_iff :
    ofValues values bins = .error (.configuration .noBins) ↔ bins = 0 := by
  constructor
  · intro refused
    by_contra some_bins
    have positive := Nat.pos_of_ne_zero some_bins
    cases finite : values.filter Float.isFinite with
    | nil =>
        rw [ofValues_noValues positive finite] at refused
        cases refused
    | cons head tail =>
        rw [ofValues_of_values positive finite] at refused
        split at refused
        · cases refused
        · cases refused
  · rintro rfl
    exact ofValues_noBins values

theorem ofValues_noValues_iff :
    ofValues values bins = .error (.noData .noValues) ↔
      0 < bins ∧ ∀ value ∈ values, value.isFinite = false := by
  constructor
  · intro refused
    rcases Nat.eq_zero_or_pos bins with rfl | positive
    · cases refused
    refine ⟨positive, ?_⟩
    cases finite : values.filter Float.isFinite with
    | nil =>
        intro value here
        exact Bool.eq_false_of_not_eq_true (List.filter_eq_nil_iff.mp finite value here)
    | cons head tail =>
        rw [ofValues_of_values positive finite] at refused
        split at refused
        · cases refused
        · cases refused
  · rintro ⟨positive, none_finite⟩
    refine ofValues_noValues positive (List.filter_eq_nil_iff.mpr fun value here => ?_)
    exact Bool.not_eq_true _ ▸ none_finite value here

/-- With some bins and some finite value, what is left to decide is the width of the range. -/
theorem ofValues_of_finite (positive : 0 < bins) (some_finite : ∃ value ∈ values, value.isFinite) :
    ∃ low high, Ends (values.filter Float.isFinite) low high ∧
      (ofValues values bins = .error (.invalidInput (.wideRange low high)) ↔
        (high - low).isFinite = false) ∧
      ((high - low).isFinite → ∃ histogram, ofValues values bins = .ok histogram ∧
        Tallied (values.filter Float.isFinite) low high bins histogram ∧
        (values.length ≤ greatestCount →
          histogram.total = .ok (values.filter Float.isFinite).length)) := by
  obtain ⟨value, here, value_finite⟩ := some_finite
  have member := List.mem_filter.mpr ⟨here, value_finite⟩
  have all_finite : ∀ value ∈ values.filter Float.isFinite, value.isFinite :=
    fun value here => (List.mem_filter.mp here).2
  have fewer := List.length_filter_le Float.isFinite values
  cases finite : values.filter Float.isFinite with
  | nil => simp [finite] at member
  | cons head tail =>
      rw [finite] at all_finite fewer
      refine ⟨_, _, bounds_ends all_finite, ?_⟩
      rw [ofValues_of_values positive finite]
      by_cases narrow : ((bounds head tail).2 - (bounds head tail).1).isFinite
      · rw [if_pos narrow]
        have tallied := between_tallied positive (head :: tail) (bounds head tail).1
          (bounds head tail).2
        refine ⟨by simp [narrow], fun _ => ⟨_, rfl, tallied, fun few => ?_⟩⟩
        rw [← tallied.total]
        exact total_ok (tallied.total.trans_le (fewer.trans few))
      · rw [if_neg narrow]
        exact ⟨by simp [narrow], fun narrow' => absurd narrow' narrow⟩

/-- Whatever the rounding, a list of doubles has no histogram without bins, none without a finite
value and none if the range of the finite values is not finite. Otherwise the histogram reaches to
the end of the range and counts each finite value once, in a bin that is there. Values that are not
finite make no difference. -/
theorem ofValues_decides (values : List Float) (bins : Nat) :
    (ofValues values bins = .error (.configuration .noBins) ↔ bins = 0) ∧
    (ofValues values bins = .error (.noData .noValues) ↔
      0 < bins ∧ ∀ value ∈ values, value.isFinite = false) ∧
    (0 < bins → (∃ value ∈ values, value.isFinite) →
      ∃ low high, Ends (values.filter Float.isFinite) low high ∧
        (ofValues values bins = .error (.invalidInput (.wideRange low high)) ↔
          (high - low).isFinite = false) ∧
        ((high - low).isFinite → ∃ histogram, ofValues values bins = .ok histogram ∧
          Tallied (values.filter Float.isFinite) low high bins histogram ∧
          (values.length ≤ greatestCount →
            histogram.total = .ok (values.filter Float.isFinite).length))) ∧
    (∀ others : List Float, others.filter Float.isFinite = values.filter Float.isFinite →
      ofValues others bins = ofValues values bins) :=
  ⟨ofValues_noBins_iff, ofValues_noValues_iff, ofValues_of_finite, fun _ => ofValues_congr⟩

/-- Zero and the least double above it, with a value that is no number. Half of their distance
rounds to zero, and the quotients are no number and infinite. -/
theorem ofValues_decides_underflow :
    ∃ low high histogram, Ends ([0.0, 5e-324, 0.0 / 0.0].filter Float.isFinite) low high ∧
      ofValues [0.0, 5e-324, 0.0 / 0.0] 2 = .ok histogram ∧
      Tallied ([0.0, 5e-324, 0.0 / 0.0].filter Float.isFinite) low high 2 histogram ∧
      histogram.total = .ok 2 ∧
      ofValues [0.0 / 0.0, 0.0, 5e-324] 2 = .ok histogram := by
  have zero : (0.0 : Float).isFinite := by decide +kernel
  have least : (5e-324 : Float).isFinite := by decide +kernel
  have no_number : (0.0 / 0.0 : Float).isFinite = false := by decide +kernel
  obtain ⟨-, -, decided, same⟩ := ofValues_decides [0.0, 5e-324, 0.0 / 0.0] 2
  obtain ⟨low, high, ends, refused, built⟩ :=
    decided (by decide) ⟨0.0, List.mem_cons_self, zero⟩
  have narrow : (high - low).isFinite := by
    by_contra wide
    have there : (ofValues [0.0, 5e-324, 0.0 / 0.0] 2).isOk := by decide +kernel
    rw [refused.mpr (Bool.eq_false_of_not_eq_true wide)] at there
    cases there
  obtain ⟨histogram, there, tallied, total⟩ := built narrow
  refine ⟨low, high, histogram, ends, there, tallied, ?_, ?_⟩
  · rw [total (by decide)]
    simp [zero, least, no_number]
  · rw [← there]
    exact same _ (by simp [zero, least, no_number])

example : (ofValues [0.0, 5e-324, 0.0 / 0.0] 2).toOption.map counts = some [1, 1] := by
  decide +kernel

end Histogram

end GridReport
