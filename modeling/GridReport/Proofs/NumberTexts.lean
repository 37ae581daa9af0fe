import GridReport.Decimal.Layout
import GridReport.Decimal.Numeral
import GridReport.Proofs.ShortestDigits

/-!
What the text of a number tells.

* `exists_parts`, `Parts.unique` — a finite double is told by its sign and its magnitude.
* `Spelling.split_chars` — a numeral is read off the front of a text that does not go on with it.
* `render_spelled`, `int_spelled` — the texts of doubles and integers are numerals.
* `eq_of_render`, `eq_of_toString`, `toString_ne_render` — both are told by their texts, and no
  double has the text of an integer.
-/

namespace GridReport.Decimal

/-! ### The parts of a double -/

theorem eq_of_toBits {x y : Float} (same : x.toBits.toNat = y.toBits.toNat) : x = y := by
  obtain ⟨⟨bits, valid⟩⟩ := x
  obtain ⟨⟨bits', valid'⟩⟩ := y
  obtain rfl : bits = bits' := UInt64.toNat_inj.mp same
  rfl

open Float.Model in
/-- The greatest exponent is that of the infinities and of what is no number. -/
theorem isFinite_unpack {bits : BitVec Format.binary64.numBits}
    (greatest : UnpackedFloat.unpackExponent bits = -1#_) :
    (UnpackedFloat.unpack .binary64 bits).isFinite = false := by
  have unpacked : UnpackedFloat.unpack .binary64 bits =
      if UnpackedFloat.unpackMantissa bits = 0#_ then
        .infinity (.ofBitVec (UnpackedFloat.unpackSign bits))
      else .notANumber := if_pos greatest
  rw [unpacked]
  split
  · rfl
  · rfl

/-- The exponent field of a finite double is not the greatest one. -/
theorem exponent_ne_of_isFinite {x : Float} (finite : x.isFinite) :
    x.toBits.toNat / 2 ^ 52 % 2 ^ 11 ≠ 2047 := by
  intro greatest
  have field : (Float.Model.UnpackedFloat.unpackExponent x.toModel.toBits.toBitVec :
      BitVec Float.Model.Format.binary64.exponentBits) = -1#_ := by
    apply BitVec.eq_of_toNat_eq
    change (x.toBits.toNat >>> 52) % 2 ^ 11 = 2047
    rw [Nat.shiftRight_eq_div_pow]
    exact greatest
  have finite' : x.toModel.unpack.isFinite = true := finite
  exact absurd finite' (Bool.eq_false_iff.mp (isFinite_unpack field))

/-- A zero or a magnitude of a double. -/
def Binary.Proper (x : Binary) : Prop := x = ⟨0, -1074, false⟩ ∨ x.Canonical

/-- What the fields of a finite double say. -/
structure Parts (x : Float) (negative : Bool) (magnitude : Binary) (e f : ℕ) : Prop where
  bits : x.toBits.toNat = negative.toNat * 2 ^ 63 + e * 2 ^ 52 + f
  exponent : e < 2047
  fraction : f < 2 ^ 52
  magnitude_eq : magnitude =
    if e = 0 then ⟨f, -1074, false⟩ else ⟨2 ^ 52 + f, e - 1075, f == 0 && e > 1⟩

/-- A finite double is told by its sign, exponent field and mantissa field. -/
theorem exists_parts {x : Float} (finite : x.isFinite) : ∃ negative magnitude e f,
    Shape.ofFloat x = .finite negative magnitude ∧ Parts x negative magnitude e f := by
  have proper := exponent_ne_of_isFinite finite
  have bound : x.toBits.toNat < 2 ^ 64 := UInt64.toNat_lt _
  set bits := x.toBits.toNat with hbits
  refine ⟨bits / 2 ^ 63 == 1, _, bits / 2 ^ 52 % 2 ^ 11, bits % 2 ^ 52, ?_, ?_, ?_, ?_, rfl⟩
  · rw [Shape.ofFloat, ← hbits]
    simp only [Nat.pow_eq, beq_iff_eq, if_neg proper]
    split <;> rfl
  · rw [← hbits]
    rcases (show bits / 2 ^ 63 = 0 ∨ bits / 2 ^ 63 = 1 by omega) with plus | minus
    · rw [plus]
      simp
      omega
    · rw [minus]
      simp
      omega
  · omega
  · omega

/-- The magnitude of a double is one that doubles have. -/
theorem Parts.proper {x : Float} {negative : Bool} {magnitude : Binary} {e f : ℕ}
    (parts : Parts x negative magnitude e f) : magnitude.Proper := by
  obtain ⟨-, exponent, fraction, rfl⟩ := parts
  by_cases zero : e = 0
  · rw [if_pos zero]
    rcases Nat.eq_zero_or_pos f with rfl | positive
    · exact .inl rfl
    · right
      constructor
      · exact positive
      · exact fraction.trans (by norm_num)
      · exact le_refl _
      · norm_num
      · exact fun above => absurd above (lt_irrefl _)
      · simp only [Bool.false_eq_true, false_iff]
        omega
  · rw [if_neg zero]
    right
    constructor
    · simp only
      omega
    · simp only
      omega
    · simp only
      omega
    · simp only
      omega
    · exact fun _ => Nat.le_add_right _ _
    · simp only [Bool.and_eq_true, beq_iff_eq, decide_eq_true_eq]
      omega

/-- The fields are told by sign and magnitude. -/
theorem Parts.unique {x y : Float} {negative : Bool} {magnitude : Binary} {e f e' f' : ℕ}
    (px : Parts x negative magnitude e f) (py : Parts y negative magnitude e' f') : x = y := by
  apply eq_of_toBits
  have same := px.magnitude_eq.symm.trans py.magnitude_eq
  have fx := px.fraction
  have fy := py.fraction
  have fields : e = e' ∧ f = f' := by
    split at same <;> split at same <;> simp only [Binary.mk.injEq] at same <;> omega
  rw [px.bits, py.bits, fields.1, fields.2]

/-! ### Digits -/

theorem isDigit_of_mem_digitChars {n : ℕ} {c : Char} (h : c ∈ digitChars n) : c.isDigit :=
  Nat.isDigit_of_mem_toDigits (by decide) (by decide) h

theorem digitChars_ne_nil (n : ℕ) : digitChars n ≠ [] := Nat.toDigits_ne_nil

theorem digitsValue_digitChars (n : ℕ) : digitsValue (digitChars n) = n :=
  Nat.ofDigitChars_ten_toDigits

/-- Digits in front are worth a power of ten more for each one behind. -/
theorem digitsValue_append (front back : List Char) :
    digitsValue (front ++ back) = 10 ^ back.length * digitsValue front + digitsValue back :=
  (Nat.ofDigitChars_append 0).trans Nat.ofDigitChars_eq_ofDigitChars_zero

theorem digitsValue_zeros (n : ℕ) : digitsValue (List.replicate n '0') = 0 :=
  Nat.ofDigitChars_replicate_zero.trans (Nat.mul_zero _)

theorem digitsValue_zeros_append (n : ℕ) (digits : List Char) :
    digitsValue (List.replicate n '0' ++ digits) = digitsValue digits := by
  rw [digitsValue_append, digitsValue_zeros, mul_zero, zero_add]

theorem digitsValue_append_zeros (n : ℕ) (digits : List Char) :
    digitsValue (digits ++ List.replicate n '0') = 10 ^ n * digitsValue digits := by
  rw [digitsValue_append, digitsValue_zeros, List.length_replicate, add_zero]

/-! ### Numerals as they are spelled -/

/-- The exact value of a numeral, its sign aside. -/
def Numeral.value (numeral : Numeral) : ℚ := numeral.digits * 10 ^ numeral.exponent

/-- The pieces of a numeral: its sign, the digits before the point, those after it if there is one,
and the sign and the digits of the exponent if there is one. -/
structure Spelling where
  negative : Bool
  whole : List Char
  fraction : Option (List Char)
  power : Option (Bool × List Char)

namespace Spelling

/-- The characters of the sign. -/
def sign (negative : Bool) : List Char := if negative then ['-'] else []

/-- The characters of the digits after the point. -/
def fractionChars (fraction : Option (List Char)) : List Char :=
  match fraction with
  | none => []
  | some tail => '.' :: tail

/-- The characters of the exponent. -/
def powerChars (power : Option (Bool × List Char)) : List Char :=
  match power with
  | none => []
  | some (negative, digits) => 'e' :: (if negative then '-' else '+') :: digits

/-- The value of the exponent. -/
def powerValue (power : Option (Bool × List Char)) : ℤ :=
  match power with
  | none => 0
  | some (negative, digits) => if negative then -digitsValue digits else digitsValue digits

/-- The characters of a numeral. -/
def chars (s : Spelling) : List Char :=
  sign s.negative ++ s.whole ++ fractionChars s.fraction ++ powerChars s.power

/-- The pieces are made of digits, and none is empty that must not be. -/
structure Sound (s : Spelling) : Prop where
  whole_ne_nil : s.whole ≠ []
  whole_digits : ∀ c ∈ s.whole, c.isDigit
  fraction_digits : ∀ tail ∈ s.fraction, ∀ c ∈ tail, c.isDigit
  power_ne_nil : ∀ power ∈ s.power, power.2 ≠ []
  power_digits : ∀ power ∈ s.power, ∀ c ∈ power.2, c.isDigit

/-- What the spelling says. -/
def numeral (s : Spelling) : Numeral :=
  ⟨s.negative, digitsValue (s.whole ++ s.fraction.getD []),
    powerValue s.power - (s.fraction.getD []).length, s.fraction.isNone && s.power.isNone⟩

end Spelling

/-- No numeral goes on into this text. -/
def Stops (rest : List Char) : Prop :=
  ∀ c ∈ rest.head?, c.isDigit = false ∧ c ≠ '.' ∧ c ≠ 'e' ∧ c ≠ 'E'

/-- Digits are taken up to the first character that is none. -/
theorem takeWhile_digits {digits rest : List Char} (all : ∀ c ∈ digits, c.isDigit)
    (stop : ∀ c ∈ rest.head?, c.isDigit = false) :
    (digits ++ rest).takeWhile Char.isDigit = digits ∧
      (digits ++ rest).dropWhile Char.isDigit = rest := by
  rw [List.takeWhile_append_of_pos all, List.dropWhile_append_of_pos all]
  cases rest with
  | nil => simp
  | cons c rest =>
      have plain : c.isDigit = false := stop c rfl
      simp [plain]

namespace Spelling

/-- A sign is told from the digits behind it. -/
theorem splitSign_sign (negative : Bool) {digits : List Char} (nonempty : digits ≠ [])
    (all : ∀ c ∈ digits, c.isDigit) (rest : List Char) :
    splitSign (sign negative ++ digits ++ rest) = (negative, digits ++ rest) := by
  obtain ⟨first, others, rfl⟩ := List.exists_cons_of_ne_nil nonempty
  have digit := all first List.mem_cons_self
  cases negative with
  | true => rfl
  | false =>
      simp only [sign, Bool.false_eq_true, if_false, List.nil_append, List.cons_append]
      unfold splitSign
      split
      · rename_i h
        cases h
        cases digit
      · rename_i h
        cases h
        cases digit
      · rfl

/-- A power is taken with all of its digits, if something else stops them. -/
theorem splitExponent_power {power : Option (Bool × List Char)}
    (nonempty : ∀ found ∈ power, found.2 ≠ []) (all : ∀ found ∈ power, ∀ c ∈ found.2, c.isDigit)
    {rest : List Char} (stops : Stops rest) :
    splitExponent (powerChars power ++ rest) = power.map fun _ => (powerValue power, rest) := by
  cases power with
  | none =>
      cases rest with
      | nil => rfl
      | cons c rest =>
          obtain ⟨-, -, lower, upper⟩ := stops c rfl
          simp [powerChars, splitExponent, lower, upper]
  | some found =>
      obtain ⟨negative, digits⟩ := found
      obtain ⟨first, others, is⟩ := List.exists_cons_of_ne_nil (nonempty _ rfl)
      obtain rfl : digits = first :: others := is
      have signed : splitSign ((if negative then '-' else '+') :: (first :: others ++ rest)) =
          (negative, first :: others ++ rest) := by
        cases negative <;> rfl
      obtain ⟨taken, dropped⟩ :=
        takeWhile_digits (all _ rfl) fun c here => (stops c here).1
      rw [powerChars, List.cons_append, List.cons_append, splitExponent, signed]
      simp only [taken, dropped]
      rfl

/-- What follows the digits before the point starts with no digit. -/
theorem powerChars_stops {power : Option (Bool × List Char)} {rest : List Char}
    (stops : Stops rest) :
    ∀ c ∈ (powerChars power ++ rest).head?, c.isDigit = false ∧ c ≠ '.' := by
  intro c here
  cases power with
  | none => exact ⟨(stops c here).1, (stops c here).2.1⟩
  | some found =>
      cases here
      decide

/-- A numeral starts with its sign or with a digit. -/
theorem head_chars {s : Spelling} (sound : s.Sound) :
    ∃ c rest, s.chars = c :: rest ∧ (c = '-' ∨ c.isDigit) := by
  obtain ⟨first, others, is⟩ := List.exists_cons_of_ne_nil sound.whole_ne_nil
  have digit := sound.whole_digits first (is ▸ List.mem_cons_self)
  rw [chars, is]
  cases s.negative with
  | true => exact ⟨'-', _, rfl, .inl rfl⟩
  | false => exact ⟨first, _, rfl, .inr digit⟩

/-- A spelling is read off the front of a text that does not go on with it. -/
theorem split_chars {s : Spelling} (sound : s.Sound) {rest : List Char} (stops : Stops rest) :
    Numeral.split? (s.chars ++ rest) = some (s.numeral, rest) := by
  obtain ⟨negative, whole, fraction, power⟩ := s
  obtain ⟨nonempty, whole_digits, fraction_digits, power_ne_nil, power_digits⟩ := sound
  simp only at nonempty whole_digits fraction_digits power_ne_nil power_digits
  have signed : splitSign (chars ⟨negative, whole, fraction, power⟩ ++ rest) =
      (negative, whole ++ (fractionChars fraction ++ (powerChars power ++ rest))) := by
    simp only [chars, List.append_assoc]
    rw [← List.append_assoc, splitSign_sign negative nonempty whole_digits]
  have point : ∀ c ∈ (fractionChars fraction ++ (powerChars power ++ rest)).head?,
      c.isDigit = false := by
    intro c here
    cases fraction with
    | none => exact (powerChars_stops stops c here).1
    | some tail =>
        cases here
        rfl
  have fractional : splitFraction (fractionChars fraction ++ (powerChars power ++ rest)) =
      fraction.map fun tail => (tail, powerChars power ++ rest) := by
    cases fraction with
    | none =>
        unfold splitFraction
        split
        · rename_i tail here
          have dot : '.' ∈ (powerChars power ++ rest).head? := congrArg List.head? here
          exact absurd rfl (powerChars_stops stops '.' dot).2
        · rfl
    | some tail =>
        obtain ⟨taken, dropped⟩ := takeWhile_digits (fraction_digits tail rfl)
          fun c here => (powerChars_stops stops c here).1
        rw [fractionChars, List.cons_append, splitFraction, taken, dropped]
        rfl
  have after_fraction : (fraction.map fun tail => (tail, powerChars power ++ rest)).getD
      ([], fractionChars fraction ++ (powerChars power ++ rest)) =
      (fraction.getD [], powerChars power ++ rest) := by
    cases fraction <;> rfl
  have powered := splitExponent_power power_ne_nil power_digits stops
  obtain ⟨taken, dropped⟩ := takeWhile_digits whole_digits point
  have filled : whole.isEmpty = false := List.isEmpty_eq_false_iff.mpr nonempty
  rw [Numeral.split?, signed]
  simp only [taken, dropped, fractional, after_fraction, powered, filled, Bool.false_and,
    Bool.false_eq_true, if_false, Option.isNone_map, numeral]
  cases power <;> rfl

/-! ### The layout of a document's numbers -/

/-- The spelling with the point in place; `pointAt` digits stand before it. -/
def positional (negative : Bool) (digits : List Char) (pointAt : ℤ) : Spelling :=
  if pointAt ≤ 0 then
    ⟨negative, ['0'], some (List.replicate (-pointAt).toNat '0' ++ digits), none⟩
  else
    ⟨negative, digits.take pointAt.toNat ++ List.replicate (pointAt.toNat - digits.length) '0',
      some (if (digits.drop pointAt.toNat).isEmpty then ['0'] else digits.drop pointAt.toNat),
      none⟩

/-- The spelling with one digit before the point and an exponent. -/
def scientific (negative : Bool) (digits : List Char) (exponent : ℤ) : Spelling :=
  ⟨negative, digits.take 1, if (digits.drop 1).isEmpty then none else some (digits.drop 1),
    some (exponent < 0, digitChars exponent.natAbs)⟩

variable {negative : Bool} {digits : List Char}

theorem chars_whole : (⟨negative, digits, none, none⟩ : Spelling).chars =
    sign negative ++ digits := by
  simp [chars, fractionChars, powerChars]

theorem toInt?_whole (n : ℕ) : (⟨negative, digitChars n, none, none⟩ : Spelling).numeral.toInt? =
    some (if negative then -(n : ℤ) else n) := by
  simp [numeral, Numeral.toInt?, digitsValue_digitChars]

theorem toList_signText (negative : Bool) : (signText negative).toList = sign negative := by
  cases negative <;> rfl

/-- A positional text is spelled as its digits with a point between or behind them. -/
theorem chars_positional (pointAt : ℤ) :
    (signText negative ++ positionalText digits pointAt true).toList =
      (positional negative digits pointAt).chars := by
  rw [String.toList_append, toList_signText, positionalText, positional]
  split
  · simp [chars, fractionChars, powerChars]
  · simp only
    split <;> simp [chars, fractionChars, powerChars, *]

theorem chars_scientific (exponent : ℤ) :
    (signText negative ++ exponentText digits exponent).toList =
      (scientific negative digits exponent).chars := by
  rw [String.toList_append, toList_signText, exponentText, scientific]
  split
  · simp [chars, fractionChars, powerChars]
  · simp [chars, fractionChars, powerChars]

/-- Such a spelling has digits where digits belong. -/
theorem sound_positional (nonempty : digits ≠ []) (all : ∀ c ∈ digits, c.isDigit) (pointAt : ℤ) :
    (positional negative digits pointAt).Sound := by
  have zeros : ∀ (n : ℕ) (c : Char), c ∈ List.replicate n '0' → c.isDigit := by
    intro n c here
    rw [List.eq_of_mem_replicate here]
    rfl
  rw [positional]
  split
  · constructor
    · simp
    · simp
    · rintro tail ⟨⟩ c here
      rcases List.mem_append.mp here with zero | digit
      · exact zeros _ c zero
      · exact all c digit
    · rintro power ⟨⟩
    · rintro power ⟨⟩
  · rename_i positive
    constructor
    · have first : digits.take pointAt.toNat ≠ [] := by
        rw [ne_eq, List.take_eq_nil_iff, not_or]
        exact ⟨by omega, nonempty⟩
      exact List.append_ne_nil_of_left_ne_nil first _
    · intro c here
      rcases List.mem_append.mp here with digit | zero
      · exact all c (List.mem_of_mem_take digit)
      · exact zeros _ c zero
    · rintro tail ⟨⟩ c here
      split at here
      · exact zeros 1 c here
      · exact all c (List.mem_of_mem_drop here)
    · rintro power ⟨⟩
    · rintro power ⟨⟩

theorem sound_scientific (nonempty : digits ≠ []) (all : ∀ c ∈ digits, c.isDigit) (exponent : ℤ) :
    (scientific negative digits exponent).Sound := by
  rw [scientific]
  constructor
  · simpa using nonempty
  · exact fun c here => all c (List.mem_of_mem_take here)
  · intro tail is c here
    simp only at is
    split at is
    · cases is
    · cases is
      exact all c (List.mem_of_mem_drop here)
  · rintro power ⟨⟩
    exact digitChars_ne_nil _
  · rintro power ⟨⟩ c here
    exact isDigit_of_mem_digitChars here

theorem negative_positional (pointAt : ℤ) :
    (positional negative digits pointAt).negative = negative := by
  rw [positional]
  split <;> rfl

/-- A point marks it as a real. -/
theorem isWhole_positional (pointAt : ℤ) :
    (positional negative digits pointAt).numeral.isWhole = false := by
  rw [positional]
  split <;> rfl

theorem value_numeral (s : Spelling) : s.numeral.value =
    digitsValue (s.whole ++ s.fraction.getD []) *
      10 ^ (powerValue s.power - (s.fraction.getD []).length) := rfl

/-- Its value is that of its digits at their place. -/
theorem value_positional (exponent : ℤ) :
    (positional negative digits (exponent + digits.length)).numeral.value =
      digitsValue digits * 10 ^ exponent := by
  rw [positional]
  split
  · rename_i small
    have same : digitsValue (['0'] ++ (List.replicate (-(exponent + digits.length)).toNat '0' ++
        digits)) = digitsValue digits := digitsValue_zeros_append (_ + 1) digits
    rw [value_numeral]
    simp only [Option.getD_some, same, powerValue, List.length_append, List.length_replicate]
    congr 2
    push_cast
    omega
  · rename_i large
    rw [value_numeral]
    simp only [Option.getD_some, powerValue]
    split
    · rename_i none_left
      have short : digits.length ≤ (exponent + digits.length).toNat := by
        rw [List.isEmpty_iff, List.drop_eq_nil_iff] at none_left
        exact none_left
      obtain ⟨n, rfl⟩ : ∃ n : ℕ, exponent = n := ⟨exponent.toNat, by omega⟩
      have zeros : ((n : ℤ) + digits.length).toNat - digits.length = n := by omega
      rw [List.take_of_length_le short, zeros, List.append_assoc, ← List.replicate_succ',
        digitsValue_append_zeros]
      rw [zpow_natCast, List.length_singleton, Nat.cast_one, zero_sub, zpow_neg_one, pow_succ]
      push_cast
      ring
    · rename_i some_left
      have long : (exponent + digits.length).toNat < digits.length := by
        rw [List.isEmpty_iff, List.drop_eq_nil_iff] at some_left
        omega
      rw [Nat.sub_eq_zero_of_le long.le, List.replicate_zero, List.append_nil,
        List.take_append_drop, List.length_drop]
      congr 2
      omega

/-- So is that of a text with an exponent. -/
theorem value_scientific (nonempty : digits ≠ []) (exponent : ℤ) :
    (scientific negative digits (exponent + digits.length - 1)).numeral.value =
      digitsValue digits * 10 ^ exponent := by
  have power : powerValue (some (decide (exponent + digits.length - 1 < 0),
      digitChars (exponent + digits.length - 1).natAbs)) = exponent + digits.length - 1 := by
    rw [powerValue, digitsValue_digitChars]
    simp only [decide_eq_true_eq]
    split <;> omega
  have whole : (if (digits.drop 1).isEmpty then none else some (digits.drop 1) :
      Option (List Char)).getD [] = digits.drop 1 := by
    split
    · rename_i none_left
      exact (List.isEmpty_iff.mp none_left).symm
    · rfl
  have positive := List.length_pos_of_ne_nil nonempty
  rw [value_numeral, scientific]
  simp only [power, whole, List.take_append_drop, List.length_drop]
  congr 2
  omega

end Spelling

/-! ### The text of a double in a document -/

/-- The value that the digits of a magnitude show. -/
def Binary.shown (x : Binary) : ℚ := if x.m = 0 then 0 else (x.shortest .toEven).value

theorem Binary.Canonical.shown_pos {x : Binary} (canonical : x.Canonical) : 0 < x.shown := by
  have low := (shortest_rounds canonical .toEven).low
  have bits : 0 < x.lowQuarters := by
    have := canonical.positive
    rw [lowQuarters]
    split <;> omega
  rw [shown, if_neg canonical.positive.ne']
  have bits' : (0 : ℚ) < x.lowQuarters := by exact_mod_cast bits
  exact (mul_pos bits' x.quarter_pos).trans_le low

/-- Zeros and magnitudes of doubles are told by the value that they show. -/
theorem Binary.eq_of_shown {x y : Binary} (hx : x.Proper) (hy : y.Proper)
    (same : x.shown = y.shown) : x = y := by
  rcases hx with rfl | hx
  · rcases hy with rfl | hy
    · rfl
    · have := hy.shown_pos
      rw [← same] at this
      exact absurd this (lt_irrefl 0)
  · rcases hy with rfl | hy
    · have := hx.shown_pos
      rw [same] at this
      exact absurd this (lt_irrefl 0)
    · rw [shown, shown, if_neg hx.positive.ne', if_neg hy.positive.ne'] at same
      exact eq_of_shortest_value hx hy same

/-- The text of a magnitude in a document is a numeral with a point or an exponent that shows its
digits. -/
theorem magnitude_spelled (negative : Bool) (x : Binary) : ∃ s : Spelling,
    (signText negative ++ document.magnitude x).toList = s.chars ∧ s.Sound ∧
      s.negative = negative ∧ s.numeral.isWhole = false ∧ s.numeral.value = x.shown := by
  by_cases zero : x.m = 0
  · have text : document.magnitude x = "0.0" := by
      rw [Layout.magnitude, zero]
      rfl
    have sound : (Spelling.positional negative ['0'] 1).Sound :=
      Spelling.sound_positional (List.cons_ne_nil _ _) (by simp) 1
    rw [text, Binary.shown, if_pos zero]
    refine ⟨⟨negative, ['0'], some ['0'], none⟩, ?_, sound, rfl, rfl, ?_⟩
    · cases negative <;> rfl
    · rw [Spelling.value_numeral]
      simp [digitsValue]
  · set d := x.shortest .toEven with hd
    set pointAt := d.exponent + (digitChars d.digits).length with hpoint
    have nonempty := digitChars_ne_nil d.digits
    have all : ∀ c ∈ digitChars d.digits, c.isDigit := fun c here => isDigit_of_mem_digitChars here
    have value : x.shown = digitsValue (digitChars d.digits) * 10 ^ d.exponent := by
      rw [Binary.shown, if_neg zero, digitsValue_digitChars]
      rfl
    have text : document.magnitude x =
        if -4 ≤ pointAt && pointAt ≤ 16 then positionalText (digitChars d.digits) pointAt true
        else exponentText (digitChars d.digits) (pointAt - 1) := by
      rw [Layout.magnitude, if_neg (by rwa [beq_iff_eq])]
      rfl
    rw [text, value]
    by_cases near : -4 ≤ pointAt && pointAt ≤ 16
    · rw [if_pos near]
      exact ⟨.positional negative _ _, Spelling.chars_positional _,
        Spelling.sound_positional nonempty all _, Spelling.negative_positional _,
        Spelling.isWhole_positional _, Spelling.value_positional _⟩
    · rw [if_neg near]
      exact ⟨.scientific negative _ _, Spelling.chars_scientific _,
        Spelling.sound_scientific nonempty all _, rfl, Bool.and_false _,
        Spelling.value_scientific nonempty _⟩

/-- The text of a finite double shows its sign and its magnitude. -/
theorem render_spelled {x : Float} (finite : x.isFinite) : ∃ s : Spelling,
    (document.render x).toList = s.chars ∧ s.Sound ∧ s.numeral.isWhole = false ∧
      ∃ magnitude e f, Parts x s.negative magnitude e f ∧ s.numeral.value = magnitude.shown := by
  obtain ⟨negative, magnitude, e, f, shape, parts⟩ := exists_parts finite
  obtain ⟨s, chars, sound, rfl, whole, value⟩ := magnitude_spelled negative magnitude
  refine ⟨s, ?_, sound, whole, magnitude, e, f, parts, value⟩
  rw [Layout.render, shape]
  exact chars

theorem int_spelled (value : ℤ) : ∃ s : Spelling, (toString value).toList = s.chars ∧ s.Sound ∧
    s.numeral.toInt? = some value := by
  have sound : ∀ (negative : Bool) (n : ℕ),
      (Spelling.mk negative (digitChars n) none none).Sound := by
    intro negative n
    constructor
    · exact digitChars_ne_nil n
    · exact fun c here => isDigit_of_mem_digitChars here
    · rintro tail ⟨⟩
    · rintro power ⟨⟩
    · rintro power ⟨⟩
  cases value with
  | ofNat n =>
      refine ⟨⟨false, digitChars n, none, none⟩, ?_, sound _ _, ?_⟩
      · rw [Spelling.chars_whole]
        exact Nat.toList_repr
      · rw [Spelling.toInt?_whole]
        rfl
  | negSucc n =>
      refine ⟨⟨true, digitChars (n + 1), none, none⟩, ?_, sound _ _, ?_⟩
      · rw [Spelling.chars_whole]
        exact (String.toList_append ..).trans (congrArg ('-' :: ·) Nat.toList_repr)
      · rw [Spelling.toInt?_whole]
        rfl

/-! ### What follows a number -/

section Following

variable {rest rest' : List Char}

/-- A number text that something else follows is read in one way only. -/
theorem Spelling.eq_of_chars {s s' : Spelling} (sound : s.Sound) (sound' : s'.Sound)
    (stops : Stops rest) (stops' : Stops rest') (same : s.chars ++ rest = s'.chars ++ rest') :
    s.numeral = s'.numeral ∧ rest = rest' := by
  have split := split_chars sound stops
  rw [same, split_chars sound' stops'] at split
  obtain ⟨numerals, rests⟩ := Prod.mk.inj (Option.some.inj split)
  exact ⟨numerals.symm, rests.symm⟩

/-- **Finite doubles are told by their text in a document**, whatever follows it. -/
theorem eq_of_render {x y : Float} (hx : x.isFinite) (hy : y.isFinite) (stops : Stops rest)
    (stops' : Stops rest')
    (same : (document.render x).toList ++ rest = (document.render y).toList ++ rest') :
    x = y ∧ rest = rest' := by
  obtain ⟨s, chars, sound, -, magnitude, e, f, parts, value⟩ := render_spelled hx
  obtain ⟨s', chars', sound', -, magnitude', e', f', parts', value'⟩ := render_spelled hy
  rw [chars, chars'] at same
  obtain ⟨numerals, rests⟩ := Spelling.eq_of_chars sound sound' stops stops' same
  have signs : s.negative = s'.negative := congrArg Numeral.negative numerals
  have values : magnitude.shown = magnitude'.shown := by
    rw [← value, ← value', numerals]
  obtain rfl := Binary.eq_of_shown parts.proper parts'.proper values
  rw [signs] at parts
  exact ⟨parts.unique parts', rests⟩

/-- Integers are told by their text, whatever follows it. -/
theorem eq_of_toString {a b : ℤ} (stops : Stops rest) (stops' : Stops rest')
    (same : (toString a).toList ++ rest = (toString b).toList ++ rest') : a = b ∧ rest = rest' := by
  obtain ⟨s, chars, sound, told⟩ := int_spelled a
  obtain ⟨s', chars', sound', told'⟩ := int_spelled b
  rw [chars, chars'] at same
  obtain ⟨numerals, rests⟩ := Spelling.eq_of_chars sound sound' stops stops' same
  rw [numerals, told'] at told
  exact ⟨(Option.some.inj told).symm, rests⟩

/-- The text of a double in a document has a point or an exponent, and that of an integer none. -/
theorem toString_ne_render {a : ℤ} {x : Float} (finite : x.isFinite) (stops : Stops rest)
    (stops' : Stops rest') :
    (toString a).toList ++ rest ≠ (document.render x).toList ++ rest' := by
  intro same
  obtain ⟨s, chars, sound, told⟩ := int_spelled a
  obtain ⟨s', chars', sound', pointed, -⟩ := render_spelled finite
  rw [chars, chars'] at same
  obtain ⟨numerals, -⟩ := Spelling.eq_of_chars sound sound' stops stops' same
  rw [Numeral.toInt?, numerals, pointed] at told
  cases told

end Following

end GridReport.Decimal
