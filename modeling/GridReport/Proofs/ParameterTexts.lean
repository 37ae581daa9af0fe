import GridReport.Parameter
import GridReport.Proofs.NumberTexts
import GridReport.Proofs.TrimmedTexts

/-!
What the text of a parameter says.

Three grammars are tried on a value in turn: whole numbers, reals, and any text. They are told here
by how their texts are written, so that each value falls under one of them.

* `WholeText`, `RealText` — the texts of whole numbers and of reals, with what they denote.
* `integer?_eq_some`, `real?_eq_some` — the readers take just these texts.
* `parse_eq_error`, `parse_eq_ok` — which texts are parameters, and of what name.
* `parse_classifies` — the whole of it, with the integers that are read back.
-/

namespace GridReport

namespace Decimal

/-! ### Numerals as they may be written -/

/-- The spellings of a sign, and whether it is a minus. -/
inductive SignText : List Char → Bool → Prop where
  | none : SignText [] false
  | plus : SignText ['+'] false
  | minus : SignText ['-'] true

/-- One digit or more. -/
structure Digits (chars : List Char) : Prop where
  ne_nil : chars ≠ []
  all : ∀ c ∈ chars, c.isDigit

/-- The value of digits after a sign. -/
def signedValue (negative : Bool) (digits : List Char) : ℤ :=
  if negative then -(digitsValue digits : ℤ) else digitsValue digits

/-- A whole number: digits after a sign that may be missing. -/
inductive WholeText : List Char → ℤ → Prop where
  | of {sign digits : List Char} {negative : Bool} (signed : SignText sign negative)
      (some_digits : Digits digits) : WholeText (sign ++ digits) (signedValue negative digits)

/-- A mantissa, with its digits before the point and those after it if there is one. At least one
digit stands before or after the point. -/
inductive MantissaText : List Char → List Char → Option (List Char) → Prop where
  | whole {digits : List Char} (some_digits : Digits digits) : MantissaText digits digits none
  | point {whole tail : List Char} (some_digits : Digits (whole ++ tail)) :
      MantissaText (whole ++ '.' :: tail) whole (some tail)

/-- An exponent that may be missing, and its value. -/
inductive PowerText : List Char → Option ℤ → Prop where
  | none : PowerText [] none
  | power {letter : Char} {sign digits : List Char} {negative : Bool}
      (marked : letter = 'e' ∨ letter = 'E') (signed : SignText sign negative)
      (some_digits : Digits digits) :
      PowerText (letter :: (sign ++ digits)) (some (signedValue negative digits))

/-- A numeral: a mantissa after a sign that may be missing, and an exponent that may be, too. -/
inductive NumeralText : List Char → Numeral → Prop where
  | of {sign mantissa whole power : List Char} {negative : Bool} {fraction : Option (List Char)}
      {exponent : Option ℤ} (signed : SignText sign negative)
      (digits : MantissaText mantissa whole fraction) (powered : PowerText power exponent) :
      NumeralText (sign ++ (mantissa ++ power))
        ⟨negative, digitsValue (whole ++ fraction.getD []),
          exponent.getD 0 - (fraction.getD []).length, fraction.isNone && exponent.isNone⟩

/-! ### Reading them -/

theorem exists_signText {chars rest : List Char} {negative : Bool}
    (split : splitSign chars = (negative, rest)) :
    ∃ sign, SignText sign negative ∧ chars = sign ++ rest := by
  unfold splitSign at split
  split at split
  · cases split
    exact ⟨['-'], .minus, rfl⟩
  · cases split
    exact ⟨['+'], .plus, rfl⟩
  · cases split
    exact ⟨[], .none, rfl⟩

/-- The text starts with no sign. -/
def Unsigned (rest : List Char) : Prop := ∀ c ∈ rest.head?, c ≠ '-' ∧ c ≠ '+'

/-- A sign is split off as what it is, if no second one follows. -/
theorem SignText.splitSign_append {sign : List Char} {negative : Bool}
    (signed : SignText sign negative) {rest : List Char} (unsigned : Unsigned rest) :
    splitSign (sign ++ rest) = (negative, rest) := by
  cases signed with
  | none =>
    rw [List.nil_append]
    unfold splitSign
    split
    · exact absurd rfl (unsigned '-' rfl).1
    · exact absurd rfl (unsigned '+' rfl).2
    · rfl
  | plus => rfl
  | minus => rfl

theorem ne_sign_of_isDigit {c : Char} (digit : c.isDigit) : c ≠ '-' ∧ c ≠ '+' := by
  constructor <;> rintro rfl <;> cases digit

theorem Digits.unsigned {digits : List Char} (some_digits : Digits digits) (rest : List Char) :
    Unsigned (digits ++ rest) := by
  obtain ⟨first, others, rfl⟩ := List.exists_cons_of_ne_nil some_digits.ne_nil
  rintro c ⟨⟩
  exact ne_sign_of_isDigit (some_digits.all _ List.mem_cons_self)

theorem MantissaText.unsigned {mantissa whole : List Char} {fraction : Option (List Char)}
    (digits : MantissaText mantissa whole fraction) (rest : List Char) :
    Unsigned (mantissa ++ rest) := by
  cases digits with
  | whole some_digits => exact some_digits.unsigned rest
  | point some_digits =>
    cases whole with
    | nil =>
      rintro c ⟨⟩
      decide
    | cons first others =>
      rintro c ⟨⟩
      exact ne_sign_of_isDigit (some_digits.all _ List.mem_cons_self)

/-- A text denotes one integer at most. -/
theorem WholeText.unique {chars : List Char} {one other : ℤ} (first : WholeText chars one)
    (second : WholeText chars other) : one = other := by
  cases first with
  | @of sign digits negative signed some_digits =>
  generalize is : sign ++ digits = chars at second
  cases second with
  | @of sign' digits' negative' signed' some_digits' =>
  have same := signed.splitSign_append (some_digits.unsigned [])
  rw [List.append_nil, is, ← List.append_nil digits',
    signed'.splitSign_append (some_digits'.unsigned [])] at same
  cases same
  rw [List.append_nil]

theorem WholeText.numeral {chars : List Char} {value : ℤ} (whole : WholeText chars value) :
    ∃ numeral, NumeralText chars numeral := by
  cases whole with
  | @of sign digits negative signed some_digits =>
  have written := NumeralText.of signed (.whole some_digits) .none
  rw [List.append_nil] at written
  exact ⟨_, written⟩

theorem takeWhile_isDigit_append (chars : List Char) :
    chars.takeWhile Char.isDigit ++ chars.dropWhile Char.isDigit = chars :=
  List.takeWhile_append_dropWhile

/-- Digits that are taken are digits. -/
theorem digits_takeWhile {chars : List Char} (some_taken : chars.takeWhile Char.isDigit ≠ []) :
    Digits (chars.takeWhile Char.isDigit) :=
  ⟨some_taken, fun _ => List.mem_takeWhile_imp⟩

/-- An exponent that is split off is written in front of the rest. -/
theorem exists_powerText {chars rest : List Char} {value : ℤ}
    (split : splitExponent chars = some (value, rest)) :
    ∃ power, PowerText power (some value) ∧ chars = power ++ rest := by
  rw [splitExponent.eq_def] at split
  cases chars with
  | nil => cases split
  | cons letter after =>
    simp only at split
    split at split
    · rename_i marked
      cases signed : splitSign after with
      | mk negative unsigned =>
        obtain ⟨sign, signed', rfl⟩ := exists_signText signed
        rw [signed] at split
        simp only at split
        split at split
        · cases split
        · rename_i some_taken
          cases split
          refine ⟨_, .power (by simpa using marked) signed' (digits_takeWhile some_taken), ?_⟩
          rw [List.cons_append, List.append_assoc, takeWhile_isDigit_append]
    · cases split

/-- An exponent is read to its end. -/
theorem splitExponent_of_power {power : List Char} {value : ℤ}
    (powered : PowerText power (some value)) : splitExponent power = some (value, []) := by
  cases powered with
  | @power letter sign digits negative marked signed some_digits =>
    obtain ⟨first, others, rfl⟩ := List.exists_cons_of_ne_nil some_digits.ne_nil
    have nothing_after : ∀ c ∈ ([] : List Char).head?, c.isDigit = false := by simp
    obtain ⟨taken, dropped⟩ := takeWhile_digits some_digits.all nothing_after
    have split := signed.splitSign_append (some_digits.unsigned [])
    rw [List.append_nil] at taken dropped split
    rw [splitExponent.eq_def]
    simp only [split, taken, dropped]
    exact if_pos (by simpa using marked)

/-- A mantissa is in front of what is left after the digits and the point. -/
theorem exists_mantissaText {unsigned rest : List Char} {tail : List Char}
    (split : (splitFraction (unsigned.dropWhile Char.isDigit)).getD
      ([], unsigned.dropWhile Char.isDigit) = (tail, rest))
    (some_digits : ¬(unsigned.takeWhile Char.isDigit).isEmpty ∨ ¬tail.isEmpty) :
    ∃ mantissa fraction, MantissaText mantissa (unsigned.takeWhile Char.isDigit) fraction ∧
      unsigned = mantissa ++ rest ∧ fraction.getD [] = tail ∧
      fraction.isNone = (splitFraction (unsigned.dropWhile Char.isDigit)).isNone := by
  have whole := takeWhile_isDigit_append unsigned
  unfold splitFraction at split ⊢
  revert split
  split
  · rename_i after starts
    rintro ⟨⟩
    refine ⟨_, some _, .point ⟨?_, ?_⟩, ?_, rfl, rfl⟩
    · simpa [-List.takeWhile_eq_nil_iff, or_iff_not_imp_left] using some_digits
    · intro c here
      rcases List.mem_append.mp here with here | here
      · exact List.mem_takeWhile_imp here
      · exact List.mem_takeWhile_imp here
    · rw [List.append_assoc, List.cons_append, takeWhile_isDigit_append, ← starts, whole]
  · rintro ⟨⟩
    refine ⟨_, none, .whole (digits_takeWhile ?_), whole.symm, rfl, rfl⟩
    simpa using some_digits

/-- What is read as a numeral is one. -/
theorem exists_numeralText {chars : List Char} {numeral : Numeral}
    (split : Numeral.split? chars = some (numeral, [])) : NumeralText chars numeral := by
  rw [Numeral.split?] at split
  cases signs : splitSign chars with
  | mk negative unsigned =>
  obtain ⟨sign, signed, rfl⟩ := exists_signText signs
  rw [signs] at split
  simp only at split
  cases parts : (splitFraction (unsigned.dropWhile Char.isDigit)).getD
      ([], unsigned.dropWhile Char.isDigit) with
  | mk tail rest =>
  rw [parts] at split
  simp only at split
  split at split
  · cases split
  rename_i some_digits
  obtain ⟨mantissa, fraction, digits, here, rfl, pointless⟩ :=
    exists_mantissaText parts (by simpa only [Bool.and_eq_true, not_and_or] using some_digits)
  rw [← pointless] at split
  cases power : splitExponent rest with
  | none =>
    rw [power] at split
    cases split
    have written := NumeralText.of signed digits .none
    rwa [← here] at written
  | some both =>
    obtain ⟨value, after⟩ := both
    rw [power] at split
    cases split
    obtain ⟨power, powered, rfl⟩ := exists_powerText power
    rw [List.append_nil] at here
    have written := NumeralText.of signed digits powered
    rwa [← here] at written

theorem PowerText.head {power : List Char} {exponent : Option ℤ}
    (powered : PowerText power exponent) :
    ∀ c ∈ power.head?, c.isDigit = false ∧ c ≠ '.' := by
  cases powered with
  | none => simp
  | power marked =>
    rintro c ⟨⟩
    rcases marked with rfl | rfl <;> decide

theorem splitFraction_of_power {power : List Char} {exponent : Option ℤ}
    (powered : PowerText power exponent) : splitFraction power = none := by
  unfold splitFraction
  split
  · exact absurd rfl (powered.head '.' rfl).2
  · rfl

/-- The digits of a mantissa in front of an exponent. -/
theorem split_of_mantissa {mantissa whole power : List Char} {fraction : Option (List Char)}
    {exponent : Option ℤ} (digits : MantissaText mantissa whole fraction)
    (powered : PowerText power exponent) :
    (mantissa ++ power).takeWhile Char.isDigit = whole ∧
      (splitFraction ((mantissa ++ power).dropWhile Char.isDigit)).getD
        ([], (mantissa ++ power).dropWhile Char.isDigit) = (fraction.getD [], power) ∧
      (splitFraction ((mantissa ++ power).dropWhile Char.isDigit)).isNone = fraction.isNone := by
  have ended : ∀ c ∈ power.head?, c.isDigit = false := fun c here => (powered.head c here).1
  cases digits with
  | whole some_digits =>
    obtain ⟨taken, dropped⟩ := takeWhile_digits some_digits.all ended
    rw [dropped, splitFraction_of_power powered]
    exact ⟨taken, rfl, rfl⟩
  | @point whole tail some_digits =>
    have all_whole : ∀ c ∈ whole, c.isDigit := fun c here =>
      some_digits.all c (List.mem_append_left tail here)
    have all_tail : ∀ c ∈ tail, c.isDigit := fun c here =>
      some_digits.all c (List.mem_append_right whole here)
    have stops : ∀ c ∈ ('.' :: (tail ++ power)).head?, c.isDigit = false := by simp
    obtain ⟨taken, dropped⟩ := takeWhile_digits all_whole stops
    obtain ⟨taken_tail, dropped_tail⟩ := takeWhile_digits all_tail ended
    rw [List.append_assoc, List.cons_append, taken, dropped, splitFraction, taken_tail,
      dropped_tail]
    exact ⟨rfl, rfl, rfl⟩

/-- A numeral is read to its end. -/
theorem split?_of_numeral {chars : List Char} {numeral : Numeral}
    (written : NumeralText chars numeral) : Numeral.split? chars = some (numeral, []) := by
  cases written with
  | @of sign mantissa whole power negative fraction exponent signed digits powered =>
  obtain ⟨taken, parts, pointless⟩ := split_of_mantissa digits powered
  have some_digits : (whole.isEmpty && (fraction.getD []).isEmpty) = false := by
    cases digits with
    | whole some_digits => simp [some_digits.ne_nil]
    | point some_digits => simpa [imp_iff_not_or] using some_digits.ne_nil
  rw [Numeral.split?, signed.splitSign_append (digits.unsigned power)]
  simp only [taken, parts, pointless, some_digits]
  cases exponent with
  | none =>
    cases powered
    rfl
  | some value =>
    rw [splitExponent_of_power powered]
    rfl

/-- Exactly the texts of numerals are read as such. -/
theorem parse?_eq_some {chars : List Char} {numeral : Numeral} :
    Numeral.parse? chars = some numeral ↔ NumeralText chars numeral := by
  constructor
  · intro read
    rw [Numeral.parse?] at read
    split at read
    · cases read
      exact exists_numeralText ‹_›
    · cases read
  · intro written
    rw [Numeral.parse?, split?_of_numeral written]

end Decimal

namespace Parameter

open Decimal

/-! ### Classes of values -/

/-- The words for doubles that no numeral denotes, in any case. -/
inductive NamedText : List Char → Float → Prop where
  | inf {letters : List Char} (spelled : letters.map Char.toLower = "inf".toList) :
      NamedText letters (1.0 / 0.0)
  | infinity {letters : List Char} (spelled : letters.map Char.toLower = "infinity".toList) :
      NamedText letters (1.0 / 0.0)
  | nan {letters : List Char} (spelled : letters.map Char.toLower = "nan".toList) :
      NamedText letters (0.0 / 0.0)

/-- A real: a numeral, or a word after a sign that may be missing. -/
inductive RealText : List Char → Float → Prop where
  | numeral {chars : List Char} {numeral : Numeral} (written : NumeralText chars numeral) :
      RealText chars numeral.toFloat
  | word {sign letters : List Char} {negative : Bool} {value : Float}
      (signed : SignText sign negative) (named : NamedText letters value) :
      RealText (sign ++ letters) (if negative then -value else value)

/-- The cell that a text denotes: an integer if it is one within 64 bits, else a real if it is one,
else the text itself. -/
inductive Denotes (raw : List Char) : Store.Cell → Prop where
  | integer {value : ℤ} (whole : WholeText raw value) (fits : Tick.InRange value) :
      Denotes raw (.integer value)
  | real {value : Float} (none_fits : ∀ whole, WholeText raw whole → ¬Tick.InRange whole)
      (written : RealText raw value) : Denotes raw (.real value)
  | text (none_fits : ∀ whole, WholeText raw whole → ¬Tick.InRange whole)
      (unreal : ∀ value, ¬RealText raw value) : Denotes raw (.text (String.ofList raw))

/-- An integer is read exactly from the text of one in range. -/
theorem integer?_eq_some {raw : List Char} {value : ℤ} :
    integer? raw = some value ↔ WholeText raw value ∧ Tick.InRange value := by
  rw [integer?]
  constructor
  · intro read
    cases signs : splitSign raw with
    | mk negative digits =>
    obtain ⟨sign, signed, rfl⟩ := exists_signText signs
    rw [signs] at read
    simp only at read
    split at read
    · cases read
    rename_i some_digits
    change (if Tick.InRange (signedValue negative digits) then
      some (signedValue negative digits) else none) = _ at read
    split at read
    · rename_i fits
      cases read
      rw [Bool.or_eq_true, not_or, Bool.not_eq_true', Bool.not_eq_false, List.all_eq_true]
        at some_digits
      refine ⟨.of signed ⟨?_, some_digits.2⟩, fits⟩
      rintro rfl
      exact some_digits.1 rfl
    · cases read
  · rintro ⟨whole, fits⟩
    cases whole with
    | @of sign digits negative signed some_digits =>
    have split := signed.splitSign_append (some_digits.unsigned [])
    rw [List.append_nil] at split
    have all : digits.all Char.isDigit := List.all_eq_true.mpr some_digits.all
    simp only [split, all]
    rw [if_neg (by simpa using some_digits.ne_nil)]
    exact if_pos fits

/-- Infinities and what is no number are read by their names, in any case of letters. -/
theorem namedReal?_eq_some {letters : List Char} {value : Float} :
    namedReal? letters = some value ↔ NamedText letters value := by
  rw [namedReal?]
  constructor
  · intro read
    split at read
    · cases read
      exact .inf (by rw [← String.toList_ofList (l := letters.map Char.toLower)]; congr)
    · cases read
      exact .infinity (by rw [← String.toList_ofList (l := letters.map Char.toLower)]; congr)
    · cases read
      exact .nan (by rw [← String.toList_ofList (l := letters.map Char.toLower)]; congr)
    · cases read
  · rintro (spelled | spelled | spelled) <;> rw [spelled] <;> rfl

/-- A numeral starts with a digit or a point, after its sign. -/
theorem head_of_numeral {sign rest : List Char} {negative : Bool} {numeral : Numeral}
    (signed : SignText sign negative) (unsigned : Unsigned rest)
    (written : NumeralText (sign ++ rest) numeral) : ∃ c ∈ rest.head?, c.isDigit ∨ c = '.' := by
  generalize is : sign ++ rest = chars at written
  cases written with
  | @of sign' mantissa whole power negative' fraction exponent signed' digits powered =>
  have same := signed.splitSign_append unsigned
  rw [is, signed'.splitSign_append (digits.unsigned power)] at same
  cases same
  cases digits with
  | whole some_digits =>
    obtain ⟨first, others, rfl⟩ := List.exists_cons_of_ne_nil some_digits.ne_nil
    exact ⟨first, rfl, .inl (some_digits.all _ List.mem_cons_self)⟩
  | @point whole tail some_digits =>
    cases whole with
    | nil => exact ⟨'.', rfl, .inr rfl⟩
    | cons first others => exact ⟨first, rfl, .inl (some_digits.all _ List.mem_cons_self)⟩

theorem toLower_of_isDigit {c : Char} (digit : c.isDigit) : c.toLower = c := by
  simp only [Char.isDigit, Bool.and_eq_true, decide_eq_true_eq] at digit
  refine dif_neg ?_
  rintro ⟨above, -⟩
  exact absurd (UInt32.le_trans above digit.2) (by decide)

/-- A word that denotes a double starts with a letter. -/
theorem head_of_named {letters : List Char} {value : Float} (named : NamedText letters value) :
    ∃ c rest, letters = c :: rest ∧ (c.toLower = 'i' ∨ c.toLower = 'n') := by
  cases letters with
  | cons c rest =>
    refine ⟨c, rest, rfl, ?_⟩
    rcases named with spelled | spelled | spelled
    · exact .inl (List.cons.inj spelled).1
    · exact .inl (List.cons.inj spelled).1
    · exact .inr (List.cons.inj spelled).1
  | nil => rcases named with spelled | spelled | spelled <;> cases spelled

/-- A name of a real has no sign. -/
theorem unsigned_of_named {letters : List Char} {value : Float} (named : NamedText letters value) :
    Unsigned letters := by
  obtain ⟨c, rest, rfl, letter⟩ := head_of_named named
  rintro c ⟨⟩
  constructor <;> rintro rfl <;> exact absurd letter (by decide)

/-- A word is no numeral. -/
theorem parse?_of_named {sign letters : List Char} {negative : Bool} {value : Float}
    (signed : SignText sign negative) (named : NamedText letters value) :
    Numeral.parse? (sign ++ letters) = none := by
  rw [Option.eq_none_iff_forall_ne_some]
  intro numeral read
  obtain ⟨first, here, digit⟩ :=
    head_of_numeral signed (unsigned_of_named named) (parse?_eq_some.mp read)
  obtain ⟨c, rest, rfl, letter⟩ := head_of_named named
  cases here
  rcases digit with digit | rfl
  · rw [toLower_of_isDigit digit] at letter
    rcases letter with rfl | rfl <;> cases digit
  · exact absurd letter (by decide)

/-- A real is read exactly from a numeral or a name, with a sign or without. -/
theorem real?_eq_some {raw : List Char} {value : Float} :
    real? raw = some value ↔ RealText raw value := by
  rw [real?]
  constructor
  · intro read
    split at read
    · cases read
      exact .numeral (parse?_eq_some.mp ‹_›)
    · cases signs : splitSign raw with
      | mk negative letters =>
      rw [signs] at read
      obtain ⟨value, named, rfl⟩ := Option.map_eq_some_iff.mp read
      obtain ⟨sign, signed, rfl⟩ := exists_signText signs
      exact .word signed (namedReal?_eq_some.mp named)
  · intro written
    cases written with
    | numeral written => rw [parse?_eq_some.mpr written]
    | word signed named =>
      rw [parse?_of_named signed named]
      simp only [signed.splitSign_append (unsigned_of_named named),
        namedReal?_eq_some.mpr named, Option.map_some]

/-- A text has the class that its grammar gives it, and no other. -/
theorem valueOf_eq_iff {raw : List Char} {value : Store.Cell} :
    valueOf raw = value ↔ Denotes raw value := by
  have none_fits_iff : (∀ whole, WholeText raw whole → ¬Tick.InRange whole) ↔
      integer? raw = none := by
    simp only [Option.eq_none_iff_forall_ne_some, ne_eq, integer?_eq_some, not_and]
  have unreal_iff : (∀ value, ¬RealText raw value) ↔ real? raw = none := by
    simp only [Option.eq_none_iff_forall_ne_some, ne_eq, real?_eq_some]
  rw [valueOf]
  constructor
  · rintro rfl
    split
    · obtain ⟨whole, fits⟩ := integer?_eq_some.mp ‹_›
      exact .integer whole fits
    · rename_i no_integer
      split
      · exact .real (none_fits_iff.mpr no_integer) (real?_eq_some.mp ‹_›)
      · exact .text (none_fits_iff.mpr no_integer) (unreal_iff.mpr ‹_›)
  · intro denoted
    cases denoted with
    | integer whole fits => rw [integer?_eq_some.mpr ⟨whole, fits⟩]
    | real none_fits written =>
      rw [none_fits_iff.mp none_fits, real?_eq_some.mpr written]
    | text none_fits unreal => rw [none_fits_iff.mp none_fits, unreal_iff.mp unreal]

/-- A whole number that does not fit is a real. -/
theorem denotes_of_unfit {raw : List Char} {whole : ℤ} (written : WholeText raw whole)
    (unfit : ¬Tick.InRange whole) : ∃ value, Denotes raw (.real value) := by
  have none_fits : ∀ other, WholeText raw other → ¬Tick.InRange other := by
    intro other again
    rwa [again.unique written]
  obtain ⟨numeral, spelled⟩ := written.numeral
  exact ⟨_, .real none_fits (.numeral spelled)⟩

/-! ### Names -/

/-- The name in front of the equals sign: without white space at its ends, and without the colons
in front of it. -/
def nameOf (before : List Char) : List Char := (Text.trimChars before).dropWhile (· == ':')

/-- The text is split at its first equals sign. -/
theorem splitAtEquals_eq_some {chars before rest : List Char} :
    splitAtEquals chars = some (before, rest) ↔ chars = before ++ '=' :: rest ∧ '=' ∉ before := by
  induction chars generalizing before with
  | nil => simp [splitAtEquals]
  | cons c chars ih =>
    rw [splitAtEquals]
    split
    · rename_i equals
      subst equals
      constructor
      · rintro ⟨⟩
        simp
      · rintro ⟨split, absent⟩
        cases before with
        | nil =>
          cases split
          rfl
        | cons d before =>
          cases split
          exact absurd List.mem_cons_self absent
    · rename_i other
      rw [Option.map_eq_some_iff]
      constructor
      · rintro ⟨⟨name, raw⟩, split, same⟩
        cases same
        obtain ⟨rfl, absent⟩ := ih.mp split
        exact ⟨rfl, by simp [Ne.symm other, absent]⟩
      · rintro ⟨split, absent⟩
        cases before with
        | nil => exact absurd (List.cons.inj split).1 other
        | cons d before =>
          cases split
          have absent_before : '=' ∉ before := fun here => absent (List.mem_cons_of_mem _ here)
          exact ⟨(before, rest), ih.mpr ⟨rfl, absent_before⟩, rfl⟩

theorem splitAtEquals_eq_none {chars : List Char} : splitAtEquals chars = none ↔ '=' ∉ chars := by
  induction chars with
  | nil => simp [splitAtEquals]
  | cons c chars ih =>
    rw [splitAtEquals]
    split
    · rename_i equals
      simp [equals]
    · rename_i other
      rw [Option.map_eq_none_iff, ih]
      simp [Ne.symm other]

/-- Only the name can be refused once there is an equals sign. -/
theorem parse_of_split {given : String} {before rest : List Char}
    (split : given.toList = before ++ '=' :: rest) (absent : '=' ∉ before) :
    parse given = if nameOf before = [] then .error (.noName given)
      else .ok ⟨String.ofList (':' :: nameOf before), valueOf (Text.trimChars rest)⟩ := by
  rw [parse, splitAtEquals_eq_some.mpr ⟨split, absent⟩, nameOf]
  dsimp only
  cases (Text.trimChars before).dropWhile (· == ':') with
  | nil => rfl
  | cons c name => rfl

theorem parse_of_unsplit {given : String} (absent : '=' ∉ given.toList) :
    parse given = .error (.noEquals given) := by
  rw [parse, splitAtEquals_eq_none.mpr absent]

/-- There is a first equals sign, or none. -/
theorem exists_split (given : String) : '=' ∉ given.toList ∨
    ∃ before rest, given.toList = before ++ '=' :: rest ∧ '=' ∉ before := by
  cases split : splitAtEquals given.toList with
  | none => exact .inl (splitAtEquals_eq_none.mp split)
  | some both => exact .inr ⟨both.1, both.2, splitAtEquals_eq_some.mp split⟩

/-- A text is refused if it has no equals sign, or no name in front of the first one. -/
theorem parse_eq_error {given : String} : (∃ fault, parse given = .error fault) ↔
    '=' ∉ given.toList ∨
      ∃ before rest, given.toList = before ++ '=' :: rest ∧ '=' ∉ before ∧ nameOf before = [] := by
  constructor
  · rintro ⟨fault, refused⟩
    rcases exists_split given with absent | ⟨before, rest, split, absent⟩
    · exact .inl absent
    · refine .inr ⟨before, rest, split, absent, ?_⟩
      by_contra some_name
      rw [parse_of_split split absent, if_neg some_name] at refused
      cases refused
  · rintro (absent | ⟨before, rest, split, absent, no_name⟩)
    · exact ⟨_, parse_of_unsplit absent⟩
    · exact ⟨_, (parse_of_split split absent).trans (if_pos no_name)⟩

/-- A text is a parameter of the name and the value that its two parts say. -/
theorem parse_eq_ok {given : String} {parameter : Parameter} : parse given = .ok parameter ↔
    ∃ before rest, given.toList = before ++ '=' :: rest ∧ '=' ∉ before ∧ nameOf before ≠ [] ∧
      parameter.name = String.ofList (':' :: nameOf before) ∧
      Denotes (Text.trimChars rest) parameter.value := by
  constructor
  · intro accepted
    rcases exists_split given with absent | ⟨before, rest, split, absent⟩
    · rw [parse_of_unsplit absent] at accepted
      cases accepted
    · rw [parse_of_split split absent] at accepted
      split at accepted
      · cases accepted
      · rename_i some_name
        cases accepted
        exact ⟨before, rest, split, absent, some_name, rfl, valueOf_eq_iff.mp rfl⟩
  · rintro ⟨before, rest, split, absent, some_name, named, denoted⟩
    rw [parse_of_split split absent, if_neg some_name, ← named, valueOf_eq_iff.mpr denoted]

/-! ### Integers written out -/

/-- An integer is shown as a text that denotes it. -/
theorem wholeText_toString (n : ℤ) : WholeText (toString n).toList n := by
  have digits (n : ℕ) : Digits (digitChars n) :=
    ⟨digitChars_ne_nil n, fun _ => isDigit_of_mem_digitChars⟩
  cases n with
  | ofNat n =>
    have text : (toString (Int.ofNat n)).toList = [] ++ digitChars n := Nat.toList_repr
    have value : signedValue false (digitChars n) = Int.ofNat n :=
      congrArg Int.ofNat (digitsValue_digitChars n)
    rw [text, ← value]
    exact .of .none (digits n)
  | negSucc n =>
    have text : (toString (Int.negSucc n)).toList = ['-'] ++ digitChars (n + 1) :=
      (String.toList_append ..).trans (congrArg ('-' :: ·) Nat.toList_repr)
    have value : signedValue true (digitChars (n + 1)) = Int.negSucc n :=
      congrArg (fun m : ℕ => -(m : ℤ)) (digitsValue_digitChars (n + 1))
    rw [text, ← value]
    exact .of .minus (digits (n + 1))

/-- A whole number has no white space at its ends. -/
theorem trimChars_of_whole {raw : List Char} {n : ℤ} (whole : WholeText raw n) :
    Text.trimChars raw = raw := by
  have bare_digit {c : Char} (digit : c.isDigit) : Text.isBlank c = false := by
    rw [← Bool.not_eq_true]
    intro blank
    rw [Sql.Lexer.isDigit_of_blank blank] at digit
    cases digit
  cases whole with
  | @of sign digits negative signed some_digits =>
  refine Sql.trimChars_of_bare ?_ ?_
  · cases signed with
    | none =>
      intro c first
      exact bare_digit (some_digits.all c (List.mem_of_mem_head? first))
    | plus =>
      rintro c ⟨⟩
      decide
    | minus =>
      rintro c ⟨⟩
      decide
  · intro c last
    rw [List.getLast?_append_of_ne_nil _ some_digits.ne_nil] at last
    exact bare_digit (some_digits.all c (List.mem_of_mem_getLast? last))

/-- **What a text says as a parameter.** It is refused exactly if it has no equals sign or no name
in front of the first one; otherwise its name and the class and content of its value are those of
its two parts. A whole number beyond 64 bits is a real, and one within them is read back. -/
theorem parse_classifies (given : String) :
    ((∃ fault, parse given = .error fault) ↔ '=' ∉ given.toList ∨
      ∃ before rest, given.toList = before ++ '=' :: rest ∧ '=' ∉ before ∧ nameOf before = []) ∧
    (∀ parameter, parse given = .ok parameter ↔
      ∃ before rest, given.toList = before ++ '=' :: rest ∧ '=' ∉ before ∧ nameOf before ≠ [] ∧
        parameter.name = String.ofList (':' :: nameOf before) ∧
        Denotes (Text.trimChars rest) parameter.value) ∧
    (∀ raw whole, WholeText raw whole → ¬Tick.InRange whole →
      ∃ value, Denotes raw (.real value)) ∧
    ∀ (name : String) (n : ℤ), '=' ∉ name.toList → nameOf name.toList ≠ [] → Tick.InRange n →
      parse (name ++ "=" ++ toString n) =
        .ok ⟨String.ofList (':' :: nameOf name.toList), .integer n⟩ := by
  refine ⟨parse_eq_error, fun parameter => parse_eq_ok, fun raw whole => denotes_of_unfit, ?_⟩
  intro name n absent some_name fits
  have whole := wholeText_toString n
  have split : (name ++ "=" ++ toString n).toList = name.toList ++ '=' :: (toString n).toList := by
    simp
  refine parse_eq_ok.mpr ⟨_, _, split, absent, some_name, rfl, ?_⟩
  rw [trimChars_of_whole whole]
  exact .integer whole fits

theorem parse_classifies_bounds :
    let name := " ::min\u00a0"
    '=' ∉ name.toList ∧ nameOf name.toList = "min".toList ∧ Tick.InRange Tick.least ∧
      parse (name ++ "=" ++ toString Tick.least) = .ok ⟨":min", .integer Tick.least⟩ ∧
      WholeText "+9223372036854775808".toList 9223372036854775808 ∧
      ¬Tick.InRange 9223372036854775808 ∧
      ∃ value, Denotes "+9223372036854775808".toList (.real value) := by
  intro name
  have absent : '=' ∉ name.toList := by decide
  have named : nameOf name.toList = "min".toList := by decide
  have fits : Tick.InRange Tick.least := by decide
  have whole : WholeText "+9223372036854775808".toList 9223372036854775808 := by
    have digits : Digits "9223372036854775808".toList :=
      ⟨by decide, List.all_eq_true.mp (by decide)⟩
    exact WholeText.of .plus digits
  have unfit : ¬Tick.InRange 9223372036854775808 := by decide
  obtain ⟨-, -, beyond, within⟩ := parse_classifies (name ++ "=" ++ toString Tick.least)
  refine ⟨absent, named, fits, ?_, whole, unfit, beyond _ _ whole unfit⟩
  rw [within name Tick.least absent (by simp [named]) fits, named]
  rfl

end Parameter

end GridReport
