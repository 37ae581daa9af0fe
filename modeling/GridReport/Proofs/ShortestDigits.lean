import GridReport.Decimal.Shortest
import Mathlib.Algebra.Order.Field.Power
import Mathlib.Algebra.Order.Ring.Rat
import Mathlib.Tactic.FieldSimp
import Mathlib.Tactic.Linarith
import Mathlib.Tactic.Positivity
import Mathlib.Tactic.Ring

/-!
What the fewest digits of a double tell.

* `compareScaled_eq_lt` and its companions — comparing digits with a magnitude is exact.
* `eq_of_rounds` — no real rounds to two magnitudes.
* `shortest_rounds` — the search for the fewest digits ends, and what it finds rounds to the
  magnitude.
* `eq_of_shortest_value` — magnitudes are told by their digits.

The ends of the reals that round to a magnitude lie a quarter or a half of a unit away, so they are
counted in quarters.
-/

namespace GridReport.Decimal

/-! ### Exact comparison -/

/-- The exact value of a magnitude. -/
def Binary.value (x : Binary) : ℚ := x.m * 2 ^ x.q

/-- The exact value of digits with an exponent. -/
def Scientific.value (d : Scientific) : ℚ := d.digits * 10 ^ d.exponent

theorem zpow_mul_toNat_neg {b : ℚ} (hb : b ≠ 0) (i : ℤ) :
    b ^ i * b ^ (-i).toNat = b ^ i.toNat := by
  rw [← zpow_natCast, ← zpow_natCast, ← zpow_add₀ hb]
  congr 1
  omega

section Scaled

variable (a : ℕ) (i : ℤ) (n : ℕ) (j : ℤ)

/-- Both sides of a scaled comparison, cleared of negative exponents. -/
theorem scaled_left : ((a * Nat.pow 10 i.toNat * Nat.pow 2 (-j).toNat : ℕ) : ℚ) =
    a * 10 ^ i * (10 ^ (-i).toNat * 2 ^ (-j).toNat) := by
  have ten := zpow_mul_toNat_neg (b := 10) (by norm_num) i
  push_cast
  simp only [Nat.pow_eq, Nat.cast_pow, Nat.cast_ofNat]
  rw [← ten]
  ring

theorem scaled_right : ((n * Nat.pow 2 j.toNat * Nat.pow 10 (-i).toNat : ℕ) : ℚ) =
    n * 2 ^ j * (10 ^ (-i).toNat * 2 ^ (-j).toNat) := by
  have two := zpow_mul_toNat_neg (b := 2) (by norm_num) j
  push_cast
  simp only [Nat.pow_eq, Nat.cast_pow, Nat.cast_ofNat]
  rw [← two]
  ring

/-- Numbers are compared as fractions, without division. -/
theorem compareScaled_eq_lt : compareScaled a i n j = .lt ↔ (a * 10 ^ i : ℚ) < n * 2 ^ j := by
  rw [compareScaled, Nat.compare_eq_lt, ← Nat.cast_lt (α := ℚ), scaled_left, scaled_right]
  exact mul_lt_mul_iff_left₀ (by positivity)

theorem compareScaled_eq_gt : compareScaled a i n j = .gt ↔ (n * 2 ^ j : ℚ) < a * 10 ^ i := by
  rw [compareScaled, Nat.compare_eq_gt, ← Nat.cast_lt (α := ℚ), scaled_left, scaled_right]
  exact mul_lt_mul_iff_left₀ (by positivity)

theorem compareScaled_eq_eq : compareScaled a i n j = .eq ↔ (a * 10 ^ i : ℚ) = n * 2 ^ j := by
  rw [compareScaled, Nat.compare_eq_eq, ← Nat.cast_inj (R := ℚ), scaled_left, scaled_right]
  exact mul_left_inj' (by positivity)

end Scaled

/-! ### Magnitudes of doubles -/

/-- A positive magnitude of a double, with the exponent that the format gives it. -/
structure Binary.Canonical (x : Binary) : Prop where
  positive : 0 < x.m
  below : x.m < 2 ^ 53
  least : -1074 ≤ x.q
  greatest : x.q ≤ 971
  /-- Only the least exponent has fewer bits. -/
  normal : -1074 < x.q → 2 ^ 52 ≤ x.m
  /-- The gap below is the narrower one at the least mantissa of an exponent. -/
  narrow : x.narrowBelow = true ↔ x.m = 2 ^ 52 ∧ -1074 < x.q

namespace Binary

variable {x y : Binary} {v : ℚ}

/-- The lower end of the reals that round to a magnitude, in quarters of its unit. -/
def lowQuarters (x : Binary) : ℕ := if x.narrowBelow then 4 * x.m - 1 else 4 * x.m - 2

/-- A quarter of the unit. -/
def quarter (x : Binary) : ℚ := 2 ^ (x.q - 2)

/-- The real rounds to the magnitude: it lies between the ends, and at an end only if the mantissa
is even. -/
structure Rounds (x : Binary) (v : ℚ) : Prop where
  low : x.lowQuarters * x.quarter ≤ v
  high : v ≤ (4 * x.m + 2 : ℕ) * x.quarter
  inside : x.m % 2 = 1 → x.lowQuarters * x.quarter < v ∧ v < (4 * x.m + 2 : ℕ) * x.quarter

theorem quarter_pos (x : Binary) : 0 < x.quarter := by
  rw [quarter]
  positivity

/-- A magnitude is four of its quarters for each step. -/
theorem value_eq (x : Binary) : x.value = 4 * x.m * x.quarter := by
  have split : (2 : ℚ) ^ x.q = 2 ^ (x.q - 2) * 4 := by
    rw [show x.q = x.q - 2 + 2 by ring, zpow_add₀ (by norm_num)]
    norm_num
  rw [value, quarter, split]
  ring

/-- What lies strictly between the ends rounds to the magnitude. -/
theorem Rounds.of_inside (low : x.lowQuarters * x.quarter < v)
    (high : v < (4 * x.m + 2 : ℕ) * x.quarter) : x.Rounds v :=
  ⟨low.le, high.le, fun _ => ⟨low, high⟩⟩

/-- A decimal is read back exactly if it lies where it rounds to the double. -/
theorem readsBack_iff (x : Binary) (d : Scientific) :
    x.readsBack d = true ↔ x.Rounds d.value := by
  have tested : x.readsBack d = true ↔
      (x.lowQuarters * x.quarter < d.value ∨ x.m % 2 = 0 ∧ d.value = x.lowQuarters * x.quarter) ∧
      (d.value < (4 * x.m + 2 : ℕ) * x.quarter ∨
        x.m % 2 = 0 ∧ d.value = (4 * x.m + 2 : ℕ) * x.quarter) := by
    simp only [readsBack, Bool.and_eq_true, Bool.or_eq_true, beq_iff_eq, compareScaled_eq_gt,
      compareScaled_eq_eq, compareScaled_eq_lt]
    rfl
  rw [tested]
  constructor
  · rintro ⟨low | ⟨even, low⟩, high | ⟨even', high⟩⟩
    · exact .of_inside low high
    · exact ⟨low.le, high.le, fun odd => by omega⟩
    · exact ⟨low.ge, high.le, fun odd => by omega⟩
    · exact ⟨low.ge, high.le, fun odd => by omega⟩
  · rintro ⟨low, high, inside⟩
    rcases Nat.mod_two_eq_zero_or_one x.m with even | odd
    · constructor
      · exact low.lt_or_eq.imp_right fun same => ⟨even, same.symm⟩
      · exact high.lt_or_eq.imp_right fun same => ⟨even, same⟩
    · exact ⟨.inl (inside odd).1, .inl (inside odd).2⟩

/-! ### No two magnitudes share a real -/

/-- The ends of a magnitude and of one above it do not overlap, and if they meet, one of the two is
odd. -/
theorem ends_apart (hx : x.Canonical) (hy : y.Canonical)
    (before : x.q < y.q ∨ x.q = y.q ∧ x.m < y.m) :
    (4 * x.m + 2 : ℕ) * x.quarter < y.lowQuarters * y.quarter ∨
      (4 * x.m + 2 : ℕ) * x.quarter = y.lowQuarters * y.quarter ∧
        (x.m % 2 = 1 ∨ y.m % 2 = 1) := by
  have xpos := x.quarter_pos
  rcases before with lower | ⟨same, lower⟩
  · -- The mantissa above is at least 2 ^ 52, and its unit is at least twice as large.
    have doubled : 2 * x.quarter ≤ y.quarter := by
      rw [quarter, quarter, ← zpow_one_add₀ (by norm_num)]
      exact zpow_le_zpow_right₀ (by norm_num) (by omega)
    have top := hx.below
    have bottom := hy.normal (by have := hx.least; omega)
    have quarters : 4 * x.m + 2 < 2 * y.lowQuarters ∨
        4 * x.m + 2 = 2 * y.lowQuarters ∧ x.m % 2 = 1 := by
      rw [lowQuarters]
      split
      · omega
      · rename_i wide
        rw [hy.narrow] at wide
        have := hx.least
        omega
    have scaled : ((2 * y.lowQuarters : ℕ) : ℚ) * x.quarter ≤ y.lowQuarters * y.quarter := by
      push_cast
      rw [mul_comm 2, mul_assoc]
      exact mul_le_mul_of_nonneg_left doubled (Nat.cast_nonneg _)
    rcases quarters with apart | ⟨meet, odd⟩
    · left
      exact (mul_lt_mul_of_pos_right (by exact_mod_cast apart) xpos).trans_le scaled
    · rw [meet]
      exact scaled.lt_or_eq.imp_right fun same => ⟨same, .inl odd⟩
  · have units : y.quarter = x.quarter := by rw [quarter, quarter, same]
    have wide : y.lowQuarters = 4 * y.m - 2 := by
      rw [lowQuarters, if_neg]
      rw [hy.narrow]
      rintro ⟨least, normal⟩
      have := hx.normal (by omega)
      omega
    rw [units, wide]
    rcases Nat.lt_or_ge (4 * x.m + 2) (4 * y.m - 2) with apart | close
    · left
      exact mul_lt_mul_of_pos_right (by exact_mod_cast apart) xpos
    · right
      have meet : 4 * x.m + 2 = 4 * y.m - 2 := by omega
      exact ⟨by rw [meet], by omega⟩

theorem not_rounds_of_before (hx : x.Canonical) (hy : y.Canonical)
    (before : x.q < y.q ∨ x.q = y.q ∧ x.m < y.m) (rx : x.Rounds v) : ¬ y.Rounds v := by
  intro ry
  rcases ends_apart hx hy before with apart | ⟨meet, odd | odd⟩
  · exact absurd (rx.high.trans_lt apart) ry.low.not_gt
  · exact absurd ((rx.inside odd).2.trans_eq meet) ry.low.not_gt
  · exact absurd (rx.high.trans_eq meet) (ry.inside odd).1.not_ge

/-- A number rounds to one double only. -/
theorem eq_of_rounds (hx : x.Canonical) (hy : y.Canonical) (rx : x.Rounds v) (ry : y.Rounds v) :
    x = y := by
  have q_eq : x.q = y.q := by
    rcases lt_trichotomy x.q y.q with lower | same | higher
    · exact absurd ry (not_rounds_of_before hx hy (.inl lower) rx)
    · exact same
    · exact absurd rx (not_rounds_of_before hy hx (.inl higher) ry)
  have m_eq : x.m = y.m := by
    rcases lt_trichotomy x.m y.m with lower | same | higher
    · exact absurd ry (not_rounds_of_before hx hy (.inr ⟨q_eq, lower⟩) rx)
    · exact same
    · exact absurd rx (not_rounds_of_before hy hx (.inr ⟨q_eq.symm, higher⟩) ry)
  have narrow_eq : x.narrowBelow = y.narrowBelow := by
    rw [Bool.eq_iff_iff, hx.narrow, hy.narrow, m_eq, q_eq]
  obtain ⟨m, q, narrow⟩ := x
  obtain rfl : m = y.m := m_eq
  obtain rfl : q = y.q := q_eq
  obtain rfl : narrow = y.narrowBelow := narrow_eq
  rfl

/-! ### The search -/

/-- Taking the floor on a decimal grid. -/
theorem floorGrid_spec (x : Binary) (e : ℤ) :
    x.floorGrid e * 10 ^ e ≤ x.value ∧ x.value < (x.floorGrid e + 1) * 10 ^ e := by
  set num := x.m * Nat.pow 2 x.q.toNat * Nat.pow 10 (-e).toNat with hnum
  set den := Nat.pow 2 (-x.q).toNat * Nat.pow 10 e.toNat with hden
  have den_pos : 0 < den := by
    rw [hden]
    exact Nat.mul_pos (Nat.pow_pos (by decide)) (Nat.pow_pos (by decide))
  have den_pos' : (0 : ℚ) < den := by exact_mod_cast den_pos
  have scaled : x.value * den = num * 10 ^ e := by
    have two := zpow_mul_toNat_neg (b := 2) (by norm_num) x.q
    have ten := zpow_mul_toNat_neg (b := 10) (by norm_num) e
    rw [hnum, hden, value]
    push_cast
    simp only [Nat.pow_eq, Nat.cast_pow, Nat.cast_ofNat]
    rw [← two, ← ten]
    ring
  have floor : x.floorGrid e = num / den := rfl
  have low : (x.floorGrid e : ℚ) * den ≤ num := by
    rw [floor]
    exact_mod_cast Nat.div_mul_le_self num den
  have high : (num : ℚ) < (x.floorGrid e + 1) * den := by
    rw [floor]
    have above := Nat.lt_div_mul_add (a := num) den_pos
    rw [← Nat.succ_mul] at above
    exact_mod_cast above
  have unit_pos : (0 : ℚ) < 10 ^ e := by positivity
  constructor
  · apply le_of_mul_le_mul_right _ den_pos'
    rw [scaled, mul_right_comm]
    exact mul_le_mul_of_nonneg_right low unit_pos.le
  · apply lt_of_mul_lt_mul_right _ den_pos'.le
    rw [scaled, mul_right_comm]
    exact mul_lt_mul_of_pos_right high unit_pos

theorem nearer_cases (x : Binary) (tie : Tie) (low : ℕ) (e : ℤ) :
    x.nearer tie low e = low ∨ x.nearer tie low e = low + 1 := by
  unfold nearer
  split
  · exact .inl rfl
  · exact .inr rfl
  · split
    · exact .inr rfl
    · split
      · exact .inl rfl
      · exact .inr rfl

/-- What the search finds is read back. -/
theorem search_rounds {tie : Tie} {scale : ℤ} {fuel count : ℕ} {d : Scientific}
    (found : x.search tie scale fuel count = some d) : x.Rounds d.value := by
  induction fuel generalizing count with
  | zero => cases found
  | succ fuel ih =>
      rw [search] at found
      split at found
      · rename_i low high
        cases found
        apply (readsBack_iff x _).mp
        rcases nearer_cases x tie _ _ with is | is
        · rw [is]
          exact low
        · rw [is]
          exact high
      · rename_i low _
        cases found
        exact (readsBack_iff x _).mp low
      · rename_i _ high
        cases found
        exact (readsBack_iff x _).mp high
      · exact ih found

/-- On the finest grid that is searched the floor reads back, if its unit is small enough. -/
theorem search_isSome {tie : Tie} {scale : ℤ} {fuel count : ℕ}
    (last : x.readsBack ⟨x.floorGrid (scale - (count + fuel)), scale - (count + fuel)⟩) :
    (x.search tie scale (fuel + 1) count).isSome := by
  induction fuel generalizing count with
  | zero =>
      rw [search]
      split
      · rfl
      · rfl
      · rfl
      · rename_i low _
        simp only [Nat.cast_zero, add_zero] at last
        rw [last] at low
        cases low
  | succ fuel ih =>
      rw [search]
      split
      · rfl
      · rfl
      · rfl
      · apply ih
        have same : scale - ((count + 1 : ℕ) + fuel) = scale - (count + (fuel + 1 : ℕ)) := by
          push_cast
          ring
        rwa [same]

/-! ### The scale -/

/-- Powers of ten and of two are compared through a fraction near the decimal logarithm of two. -/
theorem ten_zpow_le_two_zpow {a b : ℤ} {n k : ℕ} (fraction : n * a ≤ k * b) (hn : n ≠ 0)
    (near : ((10 : ℚ) ^ k) ^ b ≤ (2 ^ n) ^ b) : (10 : ℚ) ^ a ≤ 2 ^ b := by
  apply le_of_pow_le_pow_left₀ hn (by positivity)
  calc ((10 : ℚ) ^ a) ^ n = 10 ^ (n * a) := by rw [← zpow_natCast, ← zpow_mul, mul_comm]
    _ ≤ 10 ^ (k * b) := zpow_le_zpow_right₀ (by norm_num) fraction
    _ = (10 ^ k) ^ b := by rw [zpow_mul, zpow_natCast]
    _ ≤ (2 ^ n) ^ b := near
    _ = (2 ^ b) ^ n := by rw [← zpow_natCast, ← zpow_natCast, ← zpow_mul, ← zpow_mul, mul_comm]

/-- The estimate of the decimal scale from the binary logarithm of a double is never too large. -/
theorem estimate_low {log : ℤ} (least : -1074 ≤ log) (greatest : log ≤ 1023) :
    (10 : ℚ) ^ (log * 30103 / 100000 - 1 - 1) ≤ 2 ^ log := by
  rcases le_total 0 log with positive | negative
  · apply ten_zpow_le_two_zpow (n := 196) (k := 59) (by omega) (by norm_num)
    exact zpow_le_zpow_left₀ positive (by positivity) (by norm_num)
  · apply ten_zpow_le_two_zpow (n := 93) (k := 28) (by omega) (by norm_num)
    obtain ⟨i, rfl⟩ : ∃ i : ℕ, log = -i := ⟨(-log).toNat, by omega⟩
    rw [zpow_neg, zpow_neg]
    apply inv_anti₀ (by positivity)
    exact zpow_le_zpow_left₀ (Nat.cast_nonneg i) (by positivity) (by norm_num)

/-- The scale is not raised beyond the first digit. -/
theorem raiseScale_low {fuel : ℕ} {k : ℤ} (low : (10 : ℚ) ^ (k - 1) ≤ x.value) :
    (10 : ℚ) ^ (x.raiseScale fuel k - 1) ≤ x.value := by
  induction fuel generalizing k with
  | zero => exact low
  | succ fuel ih =>
      rw [raiseScale]
      split
      · exact low
      · rename_i not_above
        rw [beq_iff_eq, compareScaled_eq_gt, Nat.cast_one, one_mul, not_lt] at not_above
        apply ih
        rwa [add_sub_cancel_right]

theorem scale_low (canonical : x.Canonical) : (10 : ℚ) ^ (x.scale - 1) ≤ x.value := by
  apply raiseScale_low
  set binaryLog : ℤ := (Nat.log2 x.m : ℤ) + x.q with hlog
  have top : x.m.log2 < 53 := (Nat.log2_lt canonical.positive.ne').mpr canonical.below
  have estimated : (10 : ℚ) ^ (binaryLog * 30103 / 100000 - 1 - 1) ≤ 2 ^ binaryLog :=
    estimate_low (by have := canonical.least; omega) (by have := canonical.greatest; omega)
  apply estimated.trans
  rw [hlog, zpow_add₀ (by norm_num), zpow_natCast, value]
  have floor : 2 ^ x.m.log2 ≤ x.m := Nat.log2_self_le canonical.positive.ne'
  exact mul_le_mul_of_nonneg_right (by exact_mod_cast floor) (by positivity)

/-- Eighteen digits are enough. -/
theorem readsBack_finest (canonical : x.Canonical) :
    x.readsBack ⟨x.floorGrid (x.scale - 18), x.scale - 18⟩ := by
  rw [readsBack_iff, Scientific.value]
  simp only
  obtain ⟨low, high⟩ := x.floorGrid_spec (x.scale - 18)
  have value := x.value_eq
  have pos := x.quarter_pos
  have fine : (10 : ℚ) ^ (x.scale - 18) < x.quarter := by
    have scaled : (10 : ℚ) ^ (x.scale - 1) = 10 ^ (x.scale - 18) * 10 ^ 17 := by
      rw [← zpow_natCast, ← zpow_add₀ (by norm_num)]
      congr 1
      push_cast
      ring
    have below := scale_low canonical
    rw [scaled, value] at below
    have bits : (x.m : ℚ) < 2 ^ 53 := by exact_mod_cast canonical.below
    nlinarith
  apply Rounds.of_inside
  · have least : x.lowQuarters + 1 ≤ 4 * x.m := by
      have := canonical.positive
      rw [lowQuarters]
      split <;> omega
    have least' : (x.lowQuarters : ℚ) + 1 ≤ 4 * x.m := by exact_mod_cast least
    nlinarith
  · push_cast
    nlinarith

end Binary

/-- Zeros at the end do not count. -/
theorem Scientific.strip_value (d : Scientific) (fuel : ℕ) : (d.strip fuel).value = d.value := by
  induction fuel generalizing d with
  | zero => rfl
  | succ fuel ih =>
      rw [strip]
      split
      · rename_i zero
        rw [ih, value, value]
        simp only [Bool.and_eq_true, beq_iff_eq] at zero
        obtain ⟨tens, htens⟩ := Nat.dvd_of_mod_eq_zero zero.2
        rw [htens, Nat.mul_div_cancel_left _ (by decide), zpow_add₀ (by norm_num)]
        push_cast
        ring
      · rfl

namespace Binary

variable {x y : Binary}

/-- The fewest digits of a magnitude round to it. -/
theorem shortest_rounds (canonical : x.Canonical) (tie : Tie) :
    x.Rounds (x.shortest tie).value := by
  have some_found : (x.search tie x.scale (17 + 1) 1).isSome :=
    search_isSome (readsBack_finest canonical)
  obtain ⟨d, found⟩ := Option.isSome_iff_exists.mp some_found
  have positive : (x.m == 0) = false := by
    rw [beq_eq_false_iff_ne]
    exact canonical.positive.ne'
  have digits : x.shortest tie = d.strip 20 := by
    rw [shortest, positive, found]
    rfl
  rw [digits, Scientific.strip_value]
  exact search_rounds found

/-- **Magnitudes are told by their digits.** -/
theorem eq_of_shortest_value (hx : x.Canonical) (hy : y.Canonical) {tie : Tie}
    (same : (x.shortest tie).value = (y.shortest tie).value) : x = y :=
  eq_of_rounds hx hy (shortest_rounds hx tie) (same ▸ shortest_rounds hy tie)

end Binary

end GridReport.Decimal
