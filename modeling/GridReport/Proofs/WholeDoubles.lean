import GridReport.Tick
import Mathlib.Algebra.Order.Field.Power
import Mathlib.Algebra.Order.Ring.Rat
import Mathlib.Tactic.NormNum
import Mathlib.Tactic.Ring

/-!
Integers as doubles.

A double keeps 53 bits. An integer that needs more of them is rounded when it becomes a double, and
what it was cannot be told any more.

* `unpack_pack`, `roundWithAccuracy_exact` — what fits into 53 bits is neither rounded nor packed
  with a loss.
* `fewBits_of_value` — a double that is an integer has no more than 53 significant bits.
* `value_ofInt_iff` — which integers of 64 bits are the values of their doubles.
-/

namespace GridReport.ExactDouble

open Float.Model Float.Model.UnpackedFloat

/-! ### Packing -/

/-- The sign of a double is its first bit. -/
theorem sign_packComponents {format : Format} (sign : Sign)
    (exponent : BitVec format.exponentBits)
    (mantissa : BitVec format.mantissaBitsWithoutImplicit) :
    Sign.ofBitVec (unpackSign (packComponents format sign exponent mantissa)) = sign := by
  have bit : unpackSign (packComponents format sign exponent mantissa) = sign.toBitVec := by
    ext i first
    obtain rfl : i = 0 := by omega
    delta unpackSign packComponents
    simp only [BitVec.getElem_cast, BitVec.getElem_extract]
    refine BitVec.getLsbD_append.trans ?_
    simp [BitVec.getElem_append]
  rw [bit]
  cases sign <;> rfl

/-- A mantissa with its leading one in front and an exponent that the format has. -/
structure Normal (mantissa : ℕ) (exponent : ℤ) : Prop where
  low : 2 ^ 52 ≤ mantissa
  high : mantissa < 2 ^ 53
  least : -1074 ≤ exponent
  greatest : exponent ≤ 971

variable {n mantissa : ℕ} {exponent : ℤ}

/-- A normal mantissa has its leading bit in place. -/
theorem Normal.log2 (normal : Normal mantissa exponent) : mantissa.log2 = 52 := by
  have low := normal.low
  exact (Nat.log2_eq_iff (by omega)).mpr ⟨low, normal.high⟩

theorem log2_shifted (positive : 0 < n) (shift : ℕ) : (n * 2 ^ shift).log2 = n.log2 + shift := by
  induction shift with
  | zero => rw [pow_zero, mul_one, Nat.add_zero]
  | succ shift ih =>
      have above := Nat.mul_pos positive (Nat.two_pow_pos shift)
      rw [pow_succ', Nat.mul_left_comm, Nat.log2_two_mul above.ne', ih, Nat.add_assoc]

theorem toNat_leading_one (low : 2 ^ 52 ≤ mantissa) (high : mantissa < 2 ^ 53) :
    (1#1 ++ BitVec.ofNat 52 mantissa).toNat = mantissa := by
  rw [BitVec.toNat_append, ← Nat.shiftLeft_add_eq_or_of_lt (BitVec.isLt _), BitVec.toNat_ofNat]
  have wrapped : mantissa % 2 ^ 52 = mantissa - 2 ^ 52 := by omega
  change 1 <<< 52 + mantissa % 2 ^ 52 = mantissa
  rw [wrapped, Nat.shiftLeft_eq]
  omega

/-- A normal double is packed without a loss. -/
theorem unpack_pack {sign : Sign} (normal : Normal mantissa exponent) (positive : 0 < mantissa) :
    (Float.Model.pack (.finite sign mantissa exponent positive)).unpack =
      .finite sign mantissa exponent positive := by
  have log2 := normal.log2
  obtain ⟨low, high, least, greatest⟩ := normal
  set biased := (exponent + 1023 + 52).toNat
  have field : (BitVec.ofNat 11 biased).toNat = biased := by
    rw [BitVec.toNat_ofNat, Nat.mod_eq_of_lt (by omega)]
  -- neither the exponent of zeros and small doubles, nor that of infinities
  have not_zero : BitVec.ofNat 11 biased ≠ 0#11 := by
    rw [ne_eq, ← BitVec.toNat_inj, field]
    change ¬ biased = 0
    omega
  have not_greatest : BitVec.ofNat 11 biased ≠ -1#11 := by
    rw [ne_eq, ← BitVec.toNat_inj, field]
    change ¬ biased = 2047
    omega
  have packed : UnpackedFloat.pack .binary64 (.finite sign mantissa exponent positive) =
      packComponents .binary64 sign (BitVec.ofNat 11 biased) (BitVec.ofNat 52 mantissa) := by
    have small : ¬ 2 ^ 11 ≤ biased + 1 := by omega
    change (if 2 ^ 11 ≤ biased + 1 then _ else if mantissa.log2 + 1 = 53 then _ else _) = _
    rw [if_neg small, if_pos (by omega)]
    rfl
  change UnpackedFloat.unpack .binary64 (UnpackedFloat.pack .binary64 _) = _
  rw [packed]
  delta UnpackedFloat.unpack
  dsimp only
  rw [if_neg (unpackExponent_packComponents.trans_ne not_greatest),
    if_neg (unpackExponent_packComponents.trans_ne not_zero)]
  congr 1
  · exact sign_packComponents sign _ _
  · rw [unpackMantissa_packComponents]
    exact toNat_leading_one low high
  · rw [unpackExponent_packComponents, field]
    change (biased : ℤ) - (1023 + 52) = exponent
    omega

/-! ### Rounding -/

/-- Digits that are zero are shifted out without a trace. -/
theorem shift_zeros (mantissa shift : ℕ) :
    ExtendedMantissa.ofMantissaAndAccuracy (mantissa * 2 ^ shift) .exact >>> shift =
      ExtendedMantissa.ofMantissaAndAccuracy mantissa .exact := by
  change Nat.repeat ExtendedMantissa.shiftRightOne shift _ = _
  induction shift generalizing mantissa with
  | zero => rw [pow_zero, mul_one]; rfl
  | succ shift ih =>
      rw [pow_succ', ← mul_assoc, Nat.repeat, ih]
      have halved : mantissa * 2 / 2 = mantissa := by omega
      have even : mantissa * 2 % 2 = 0 := by omega
      change ExtendedMantissa.mk (mantissa * 2 / 2) (mantissa * 2 % 2 != 0) (false || false) = _
      rw [halved, even]
      rfl

/-- A normal mantissa with zeros behind it has them shifted out. -/
theorem shiftToTargetExponent_exact (normal : Normal mantissa exponent) (positive : 0 < mantissa)
    (shift : ℕ) :
    shiftToTargetExponent .binary64 (mantissa * 2 ^ shift) (exponent - shift) .exact =
      (ExtendedMantissa.ofMantissaAndAccuracy mantissa .exact, exponent) := by
  have target : Format.binary64.targetExponent
      (totalExponent (mantissa * 2 ^ shift) (exponent - shift)) = exponent := by
    have least := normal.least
    rw [totalExponent, log2_shifted positive, normal.log2]
    change max (_ - 53) (-1074) = _
    push_cast
    omega
  rw [shiftToTargetExponent, target, shiftToExponent]
  have distance : (exponent - (exponent - shift)).toNat = shift := by omega
  simp only [distance, shift_zeros]
  congr 1
  omega

/-- What is a normal double already is not rounded. -/
theorem roundWithAccuracy_exact (sign : Sign) (normal : Normal mantissa exponent)
    (positive : 0 < mantissa) (shift : ℕ) :
    roundWithAccuracy .binary64 sign (mantissa * 2 ^ shift) (exponent - shift) .exact =
      .finite sign mantissa exponent positive := by
  have again := shiftToTargetExponent_exact normal positive 0
  rw [pow_zero, mul_one, Nat.cast_zero, sub_zero] at again
  have rounded : (ExtendedMantissa.ofMantissaAndAccuracy mantissa .exact).roundedMantissa =
      mantissa := rfl
  rw [roundWithAccuracy, shiftToTargetExponent_exact normal positive shift]
  dsimp only
  rw [rounded, again]
  exact dif_neg positive.ne'

/-! ### Natural numbers -/

/-- A positive number below `2 ^ 53`, with its leading one moved to the front. -/
theorem normal_of_lt (positive : 0 < n) (small : n < 2 ^ 53) :
    Normal (n * 2 ^ (52 - n.log2)) (-(52 - n.log2 : ℕ)) := by
  have log2 : n.log2 < 53 := (Nat.log2_lt positive.ne').mpr small
  have above := Nat.mul_pos positive (Nat.two_pow_pos (52 - n.log2))
  have first : (n * 2 ^ (52 - n.log2)).log2 = 52 := by
    rw [log2_shifted positive]
    omega
  obtain ⟨low, high⟩ := (Nat.log2_eq_iff above.ne').mp first
  exact ⟨low, high, by omega, by omega⟩

/-- A small number is unpacked with its leading bit moved into place. -/
theorem ofNat_unpacked (positive : 0 < n) (small : n < 2 ^ 53) :
    UnpackedFloat.ofNat .binary64 n = .finite .positive (n * 2 ^ (52 - n.log2))
      (-(52 - n.log2 : ℕ)) (Nat.mul_pos positive (Nat.two_pow_pos _)) := by
  have log2 : n.log2 < 53 := (Nat.log2_lt positive.ne').mpr small
  have target : Format.binary64.targetExponent (totalExponent n 0) = -(52 - n.log2 : ℕ) := by
    change max ((n.log2 : ℤ) + 1 + 0 - 53) (-1074) = _
    omega
  have moved : (0 - -((52 - n.log2 : ℕ) : ℤ)).toNat = 52 - n.log2 := by omega
  have rounded := roundWithAccuracy_exact .positive (normal_of_lt positive small)
    (Nat.mul_pos positive (Nat.two_pow_pos _)) 0
  rw [pow_zero, mul_one, Nat.cast_zero, sub_zero] at rounded
  refine Eq.trans ?_ rounded
  rw [UnpackedFloat.ofNat, UnpackedFloat.ofInt, UnpackedFloat.normalize,
    Int.compare_eq_gt.mpr (Int.natCast_pos.mpr positive)]
  simp only [Int.toNat_natCast, UnpackedFloat.round, target, decreaseExponent, moved,
    Nat.shiftLeft_eq]
  rw [zero_sub]

/-- The power of ten that a number without an exponent is multiplied by. -/
theorem unpack_one : (Float.ofBits 0x3FF0000000000000).toModel.unpack =
    .finite .positive (2 ^ 52) (-52) (by decide) := rfl

/-- A number below `2 ^ 53` is converted as a word and then multiplied by one. -/
theorem ofNat_of_lt (positive : 0 < n) (small : n < 2 ^ 53) :
    (Float.ofNat n).toModel.unpack = .finite .positive (n * 2 ^ (52 - n.log2))
      (-(52 - n.log2 : ℕ)) (Nat.mul_pos positive (Nat.two_pow_pos _)) := by
  have normal := normal_of_lt positive small
  have word : n.toUInt64.toNat = n := by
    rw [Nat.toUInt64, UInt64.toNat_ofNat']
    omega
  have given : (Float.ofNat n).toModel =
      Float.Model.pack (UnpackedFloat.mul .binary64
        (Float.Model.pack (UnpackedFloat.ofNat .binary64 n.toUInt64.toNat)).unpack
        (Float.ofBits 0x3FF0000000000000).toModel.unpack) := by
    change (if h : n < 2 ^ 53 ∧ 0 ≤ 22 then n.toUInt64.toFloat * _ else _ : Float).toModel = _
    rw [dif_pos ⟨small, by omega⟩]
    rfl
  rw [given, word, ofNat_unpacked positive small, unpack_pack normal, unpack_one]
  have product := roundWithAccuracy_exact .positive normal
    (Nat.mul_pos positive (Nat.two_pow_pos _)) 52
  change (Float.Model.pack (roundWithAccuracy .binary64 .positive _ _ .exact)).unpack = _
  rw [← sub_eq_add_neg, show (52 : ℤ) = (52 : ℕ) from rfl, product, unpack_pack normal]

/-- A number from `2 ^ 53` on is given 53 more digits before it is rounded. -/
theorem ofNat_of_le {shift : ℕ} (normal : Normal mantissa shift) (positive : 0 < mantissa)
    (spelled : n = mantissa * 2 ^ shift) (large : 2 ^ 53 ≤ n) :
    (Float.ofNat n).toModel.unpack = .finite .positive mantissa shift positive := by
  have given : (Float.ofNat n).toModel = Float.Model.pack (roundWithAccuracy .binary64 .positive
      ((n <<< 53) * 10 ^ 0) (-53 + 0) .exact) := by
    change (if h : n < 2 ^ 53 ∧ 0 ≤ 22 then _ else Float.ofModel
      (Float.Model.ofScientific n 0) : Float).toModel = _
    rw [dif_neg fun small => by omega]
    change Float.Model.pack (if h : n = 0 then _ else if (0 : ℤ) > 2 ^ 11 then _ else
      if (0 : ℤ) < -(2 ^ 11 + n.log2) then _ else if (0 : ℤ) ≤ 0 then _ else _) = _
    rw [dif_neg (by omega), if_neg (by norm_num), if_neg (by omega), if_pos (le_refl _)]
    rfl
  have product := roundWithAccuracy_exact .positive normal positive (shift + 53)
  have digits : (n <<< 53) * 10 ^ 0 = mantissa * 2 ^ (shift + 53) := by
    rw [spelled, Nat.shiftLeft_eq, pow_zero, mul_one, mul_assoc, ← pow_add]
  have power : (-53 + 0 : ℤ) = shift - (shift + 53 : ℕ) := by
    push_cast
    ring
  rw [given, digits, power, product, unpack_pack normal]

/-! ### Values -/

/-- The value of an unpacked double, if it is finite. -/
def unpackedValue? : UnpackedFloat → Option ℚ
  | .zero _ => some 0
  | .finite sign mantissa exponent _ => some ((sign.apply mantissa : ℤ) * 2 ^ exponent)
  | _ => none

/-- The exact value of a double, if it is finite. -/
def value? (x : Float) : Option ℚ := unpackedValue? x.toModel.unpack

/-- The number has no more than 53 significant bits. -/
def FewBits (n : ℕ) : Prop := ∃ digits shift, digits < 2 ^ 53 ∧ n = digits * 2 ^ shift

theorem fewBits_of_lt (small : n < 2 ^ 53) : FewBits n :=
  ⟨n, 0, small, by rw [pow_zero, mul_one]⟩

/-- No mantissa is longer than its field. -/
theorem mantissa_lt {x : Float} {sign : Sign} {positive : 0 < mantissa}
    (unpacked : x.toModel.unpack = .finite sign mantissa exponent positive) :
    mantissa < 2 ^ 53 := by
  delta Float.Model.unpack UnpackedFloat.unpack at unpacked
  dsimp only at unpacked
  set bits : BitVec Format.binary64.numBits := x.toModel.toBits.toBitVec
  by_cases greatest : unpackExponent bits = -1#_
  · rw [if_pos greatest] at unpacked
    by_cases infinite : unpackMantissa bits = 0#_
    · rw [if_pos infinite] at unpacked
      cases unpacked
    · rw [if_neg infinite] at unpacked
      cases unpacked
  · rw [if_neg greatest] at unpacked
    by_cases least : unpackExponent bits = 0#_
    · rw [if_pos least] at unpacked
      by_cases zero : unpackMantissa bits = 0#_
      · rw [dif_pos zero] at unpacked
        cases unpacked
      · rw [dif_neg zero] at unpacked
        cases unpacked
        exact (BitVec.isLt _).trans (by decide)
    · rw [if_neg least] at unpacked
      cases unpacked
      exact BitVec.isLt _

/-- A double that is an integer has few bits. -/
theorem fewBits_of_value {x : Float} {t : ℤ} (held : value? x = some (t : ℚ)) :
    FewBits t.natAbs := by
  rw [value?] at held
  cases unpacked : x.toModel.unpack with
  | infinity sign =>
      rw [unpacked] at held
      cases held
  | notANumber =>
      rw [unpacked] at held
      cases held
  | zero sign =>
      rw [unpacked] at held
      have zero : (0 : ℚ) = t := Option.some.inj held
      obtain rfl : t = 0 := by exact_mod_cast zero.symm
      exact fewBits_of_lt (by decide)
  | finite sign mantissa exponent positive =>
      rw [unpacked] at held
      have small := mantissa_lt unpacked
      have equal : ((sign.apply mantissa : ℤ) * 2 ^ exponent : ℚ) = t := Option.some.inj held
      have signed : (sign.apply (mantissa : ℤ)).natAbs = mantissa := by
        cases sign with
        | negative => exact Int.natAbs_neg _
        | positive => rfl
      obtain ⟨shift, rfl | rfl⟩ := exponent.eq_nat_or_neg
      · rw [zpow_natCast] at equal
        have whole : sign.apply mantissa * 2 ^ shift = t := by exact_mod_cast equal
        refine ⟨mantissa, shift, small, ?_⟩
        rw [← whole, Int.natAbs_mul, Int.natAbs_pow, signed]
        rfl
      · -- below the point there are only zeros, so the integer is no longer than the mantissa
        rw [zpow_neg, zpow_natCast, ← div_eq_mul_inv, div_eq_iff (by positivity)] at equal
        have whole : sign.apply mantissa = t * 2 ^ shift := by exact_mod_cast equal
        apply fewBits_of_lt
        have magnitude : mantissa = t.natAbs * 2 ^ shift := by
          rw [← signed, whole, Int.natAbs_mul, Int.natAbs_pow]
          rfl
        have least := Nat.le_mul_of_pos_right t.natAbs (Nat.two_pow_pos shift)
        omega

/-- A positive number of few bits, within 64 bits, is the value of its double. -/
theorem ofNat_of_fewBits (few : FewBits n) (positive : 0 < n) (bound : n < 2 ^ 64) :
    ∃ mantissa exponent, ∃ above : 0 < mantissa, Normal mantissa exponent ∧
      (Float.ofNat n).toModel.unpack = .finite .positive mantissa exponent above ∧
      (mantissa * 2 ^ exponent : ℚ) = n := by
  rcases Nat.lt_or_ge n (2 ^ 53) with small | large
  · refine ⟨_, _, _, normal_of_lt positive small, ofNat_of_lt positive small, ?_⟩
    rw [zpow_neg, zpow_natCast]
    push_cast
    exact mul_inv_cancel_right₀ (by positivity) _
  · obtain ⟨digits, shift, short, rfl⟩ := few
    have digits_pos : 0 < digits := Nat.pos_of_mul_pos_right positive
    have most := (Nat.log2_lt positive.ne').mpr bound
    have least := (Nat.le_log2 positive.ne').mpr large
    rw [log2_shifted digits_pos] at most least
    -- of the zeros behind the digits, some fill the mantissa up and the others are the exponent
    have filled := normal_of_lt digits_pos short
    have normal : Normal (digits * 2 ^ (52 - digits.log2)) (shift - (52 - digits.log2) : ℕ) :=
      ⟨filled.low, filled.high, by omega, by omega⟩
    have spelled : digits * 2 ^ shift =
        digits * 2 ^ (52 - digits.log2) * 2 ^ (shift - (52 - digits.log2)) := by
      rw [mul_assoc, ← pow_add]
      congr 2
      omega
    refine ⟨_, _, Nat.mul_pos digits_pos (Nat.two_pow_pos _), normal,
      ofNat_of_le normal _ spelled large, ?_⟩
    rw [zpow_natCast, spelled]
    push_cast
    rfl

/-- **An integer of 64 bits is the value of its double exactly if it has few bits.** -/
theorem value_ofInt_iff {t : ℤ} (inRange : Tick.InRange t) :
    value? (Float.ofInt t) = some (t : ℚ) ↔ FewBits t.natAbs := by
  constructor
  · exact fewBits_of_value
  · intro few
    obtain ⟨least, greatest⟩ := inRange
    rw [Tick.least] at least
    rw [Tick.greatest] at greatest
    cases t with
    | ofNat n =>
        change FewBits n at few
        change (n : ℤ) ≤ _ at greatest
        rcases Nat.eq_zero_or_pos n with rfl | positive
        · rfl
        · obtain ⟨mantissa, exponent, above, -, unpacked, equal⟩ :=
            ofNat_of_fewBits few positive (by omega)
          change unpackedValue? (Float.ofNat n).toModel.unpack = _
          rw [unpacked]
          exact congrArg some equal
    | negSucc n =>
        change FewBits (n + 1) at few
        obtain ⟨mantissa, exponent, above, normal, unpacked, equal⟩ :=
          ofNat_of_fewBits few n.succ_pos (by omega)
        change unpackedValue? (Float.Model.pack (Float.ofNat (n + 1)).toModel.unpack.neg).unpack = _
        rw [unpacked]
        change unpackedValue?
          (Float.Model.pack (.finite .negative mantissa exponent above)).unpack = _
        rw [unpack_pack normal, Int.cast_negSucc, ← equal]
        change some (((-(mantissa : ℤ) : ℤ) : ℚ) * 2 ^ exponent) = _
        rw [Int.cast_neg, Int.cast_natCast, neg_mul]

end GridReport.ExactDouble
