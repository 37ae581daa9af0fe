import GridReport.Proofs.NumberTexts
import GridReport.SimTime

/-!
How times are written, and that they can be read back.

What a text says as a time is told here by its fields, without the divisions that make them: a sign,
a count of days, and hours, minutes and seconds in two digits each. The time of day has one length,
so the days are what is in front of it, and a text says one time only.

* `TimeText` — the texts of times, with the seconds that they say.
* `TimeText.unique` — no text says two times.
* `spanText_spelled` — the text of a span says the span.
* `render_reads_back` — which times have a text, and that it says them.
-/

namespace GridReport.SimTime

open Decimal

/-! ### The texts of times -/

/-- Two digits, and the number that they denote. -/
inductive FieldText : List Char → Nat → Prop where
  | of {digits : List Char} (all_digits : ∀ c ∈ digits, c.isDigit) (two : digits.length = 2) :
      FieldText digits (digitsValue digits)

/-- A time of day, and the seconds since midnight. -/
inductive ClockText : List Char → Nat → Prop where
  | of {hour minute second : List Char} {hours minutes seconds : Nat}
      (hour_field : FieldText hour hours) (minute_field : FieldText minute minutes)
      (second_field : FieldText second seconds) (hours_lt : hours < 24) (minutes_lt : minutes < 60)
      (seconds_lt : seconds < 60) :
      ClockText (hour ++ ':' :: (minute ++ ':' :: second)) (3600 * hours + 60 * minutes + seconds)

/-- A count of days: nothing if there are none, else their number without a zero in front. -/
inductive DayText : List Char → Nat → Prop where
  | none : DayText [] 0
  | days {digits : List Char} (all_digits : ∀ c ∈ digits, c.isDigit)
      (leading : digits.head? ≠ some '0') (positive : 1 ≤ digitsValue digits) :
      DayText (digits ++ ['d', ' ']) (digitsValue digits)

/-- Days and a time of day, and the seconds that they take. -/
inductive SpanText : List Char → Nat → Prop where
  | of {day clock : List Char} {days seconds : Nat} (day_text : DayText day days)
      (clock_text : ClockText clock seconds) : SpanText (day ++ clock) (86400 * days + seconds)

/-- A time: a span, with a minus in front if it lies before zero. -/
inductive TimeText : List Char → Int → Prop where
  | natural {chars : List Char} {span : Nat} (spelled : SpanText chars span) : TimeText chars span
  | negative {chars : List Char} {span : Nat} (spelled : SpanText chars span)
      (some_time : 0 < span) : TimeText ('-' :: chars) (-span)

/-! ### A text says one time -/

section Unique

variable {chars : List Char}

/-- Two digits spell one number. -/
theorem FieldText.unique {n m : Nat} (one : FieldText chars n) (other : FieldText chars m) :
    n = m := by
  cases one
  cases other
  rfl

theorem FieldText.length {n : Nat} (field : FieldText chars n) : chars.length = 2 := by
  cases field with
  | of _ two => exact two

theorem ClockText.length {n : Nat} (clock : ClockText chars n) : chars.length = 8 := by
  cases clock with
  | of hour minute second =>
      simp only [List.length_append, List.length_cons, hour.length, minute.length, second.length]

/-- A time of day spells one number of seconds. -/
theorem ClockText.unique {n m : Nat} (one : ClockText chars n) (other : ClockText chars m) :
    n = m := by
  cases one with
  | @of hour minute second hours minutes seconds hh mm ss =>
  generalize same : hour ++ ':' :: (minute ++ ':' :: second) = chars at other
  cases other with
  | of hh' mm' ss' =>
  obtain ⟨rfl, behind⟩ := List.append_inj same (hh.length.trans hh'.length.symm)
  obtain ⟨rfl, last⟩ := List.append_inj (List.cons.inj behind).2 (mm.length.trans mm'.length.symm)
  obtain rfl := (List.cons.inj last).2
  rw [hh.unique hh', mm.unique mm', ss.unique ss']

/-- A count of days spells one number of seconds. -/
theorem DayText.unique {n m : Nat} (one : DayText chars n) (other : DayText chars m) : n = m := by
  cases one with
  | none =>
      generalize nothing : ([] : List Char) = chars at other
      cases other with
      | none => rfl
      | days => simp at nothing
  | @days digits =>
      generalize same : digits ++ ['d', ' '] = chars at other
      cases other with
      | none => simp at same
      | days => rw [List.append_cancel_right same]

/-- A span, with days or without, spells one number of seconds. -/
theorem SpanText.unique {n m : Nat} (one : SpanText chars n) (other : SpanText chars m) :
    n = m := by
  cases one with
  | @of day clock days seconds day_text clock_text =>
  generalize same : day ++ clock = chars at other
  cases other with
  | of day_text' clock_text' =>
  obtain ⟨rfl, rfl⟩ := List.append_inj' same (clock_text.length.trans clock_text'.length.symm)
  rw [day_text.unique day_text', clock_text.unique clock_text']

/-- A span starts with a digit, and so with no sign. -/
theorem SpanText.unsigned {n : Nat} (span : SpanText chars n) : chars.head? ≠ some '-' := by
  have digit_first {digits rest : List Char} (all_digits : ∀ c ∈ digits, c.isDigit)
      (nonempty : digits ≠ []) : (digits ++ rest).head? ≠ some '-' := by
    rw [List.head?_append_of_ne_nil _ nonempty]
    intro first
    exact absurd (all_digits _ (List.mem_of_head? first)) (by decide)
  cases span with
  | of day_text clock_text =>
  cases day_text with
  | days all_digits leading positive =>
      rw [List.append_assoc]
      refine digit_first all_digits ?_
      rintro rfl
      cases positive
  | none =>
      cases clock_text with
      | of hour_field =>
      cases hour_field with
      | of all_digits two =>
          rw [List.nil_append]
          exact digit_first all_digits (List.ne_nil_of_length_eq_add_one two)

/-- No text says two times. -/
theorem TimeText.unique {one other : Int} (first : TimeText chars one)
    (second : TimeText chars other) : one = other := by
  cases first with
  | natural span =>
      cases second with
      | natural span' => rw [span.unique span']
      | negative => exact absurd rfl span.unsigned
  | negative span =>
      cases second with
      | natural span' => exact absurd rfl span'.unsigned
      | negative span' => rw [span.unique span']

end Unique

/-! ### Times written out -/

/-- A number that is not zero is written without a zero in front. -/
theorem head?_digitChars {n : Nat} (positive : 1 ≤ n) : (digitChars n).head? ≠ some '0' := by
  induction n using Nat.strongRecOn with
  | ind n ih =>
      have one_digit : ∀ d < 10, 1 ≤ d → Nat.digitChar d ≠ '0' := by decide
      rw [digitChars, Nat.toDigits_eq_if (by decide)]
      split
      · rename_i small
        simpa using one_digit n small positive
      · rename_i large
        rw [List.head?_append_of_ne_nil _ Nat.toDigits_ne_nil]
        exact ih (n / 10) (by omega) (by omega)

theorem fieldText_twoDigits {n : Nat} (below : n < 100) : FieldText (twoDigits n).toList n := by
  have shorter (k : Nat) (some_length : 0 < k) : (digitChars n).length ≤ k ↔ n < 10 ^ k :=
    Nat.length_toDigits_le_iff (by decide) some_length
  have one := shorter 1 (by decide)
  have two := shorter 2 (by decide)
  have all_digits : ∀ c ∈ digitChars n, c.isDigit := fun _ => isDigit_of_mem_digitChars
  have nonempty := List.length_pos_iff.mpr (digitChars_ne_nil n)
  have written : (toString n).toList = digitChars n := Nat.toList_repr
  rw [twoDigits]
  split
  · have padded : ∀ c ∈ '0' :: digitChars n, c.isDigit :=
      List.forall_mem_cons.mpr ⟨by decide, all_digits⟩
    have value : digitsValue ('0' :: digitChars n) = n :=
      (digitsValue_zeros_append 1 _).trans (digitsValue_digitChars n)
    rw [String.toList_append, written]
    have field := FieldText.of padded (by rw [List.length_cons]; omega)
    rwa [value] at field
  · have field := FieldText.of all_digits (by omega)
    rwa [digitsValue_digitChars, ← written] at field

/-- The text of a span says the span. -/
theorem spanText_spelled (seconds : Nat) : SpanText (spanText seconds).toList seconds := by
  have clock : ClockText
      (twoDigits (seconds / 3600 % 24) ++ ":" ++ twoDigits (seconds / 60 % 60) ++ ":" ++
        twoDigits (seconds % 60)).toList
      (3600 * (seconds / 3600 % 24) + 60 * (seconds / 60 % 60) + seconds % 60) := by
    have fields := ClockText.of (fieldText_twoDigits (n := seconds / 3600 % 24) (by omega))
      (fieldText_twoDigits (n := seconds / 60 % 60) (by omega))
      (fieldText_twoDigits (n := seconds % 60) (by omega)) (by omega) (by omega) (by omega)
    simpa using fields
  have whole : 86400 * (seconds / 86400) +
      (3600 * (seconds / 3600 % 24) + 60 * (seconds / 60 % 60) + seconds % 60) = seconds := by
    omega
  rw [spanText]
  split
  · rename_i no_days
    have span := SpanText.of .none clock
    rw [no_days] at whole
    rwa [whole] at span
  · rename_i some_days
    have positive : 1 ≤ seconds / 86400 := Nat.one_le_iff_ne_zero.mpr some_days
    have value := digitsValue_digitChars (seconds / 86400)
    have days := DayText.days (fun _ => isDigit_of_mem_digitChars) (head?_digitChars positive)
      (value.symm ▸ positive)
    rw [value] at days
    have span := SpanText.of days clock
    have written : (toString (seconds / 86400)).toList = digitChars (seconds / 86400) :=
      Nat.toList_repr
    rw [whole, ← written] at span
    simpa using span

/-! ### Times with a text -/

/-- A time that is not too long, before or after zero, is written out. -/
theorem render_of_short {seconds : Int} (short : -longest ≤ seconds ∧ seconds ≤ longest) :
    render seconds = .ok ((if seconds < 0 then "-" else "") ++ spanText seconds.natAbs) := by
  have inside : Tick.InRange seconds.natAbs := by
    simp only [Tick.InRange, Tick.least, Tick.greatest, longest] at short ⊢
    omega
  have fits : ¬ longest < seconds.natAbs := by omega
  rw [render, Tick.checked, if_pos inside]
  exact if_neg fits

/-- Any other time stops the run: its magnitude is out of range or too long. -/
theorem render_of_long {seconds : Int} (long : ¬ (-longest ≤ seconds ∧ seconds ≤ longest)) :
    ∃ defect, render seconds = .error defect := by
  have exceeds : longest < seconds.natAbs := by omega
  rw [render, Tick.checked]
  by_cases inside : Tick.InRange seconds.natAbs
  · rw [if_pos inside]
    exact ⟨_, if_pos exceeds⟩
  · rw [if_neg inside]
    exact ⟨_, rfl⟩

/-- A time is written exactly if it is in the range of a duration. -/
theorem render_returns {seconds : Int} :
    (∃ text, render seconds = .ok text) ↔ -longest ≤ seconds ∧ seconds ≤ longest := by
  constructor
  · rintro ⟨text, written⟩
    by_contra long
    obtain ⟨defect, stops⟩ := render_of_long long
    rw [written] at stops
    cases stops
  · exact fun short => ⟨_, render_of_short short⟩

/-- What is written spells the time. -/
theorem render_spelled {seconds : Int} {text : String} (written : render seconds = .ok text) :
    TimeText text.toList seconds := by
  rw [render_of_short (render_returns.mp ⟨text, written⟩)] at written
  cases written
  have span := spanText_spelled seconds.natAbs
  split
  · rename_i past
    have time := TimeText.negative span (by omega)
    rw [show -(seconds.natAbs : Int) = seconds by omega] at time
    simpa using time
  · rename_i natural
    have time := TimeText.natural span
    rw [show (seconds.natAbs : Int) = seconds by omega] at time
    simpa using time

/-- **Times can be read back.** A time has a text exactly if it is not longer than the longest one,
before or after zero; any other stops the run, the least one included. The text of a time is a
minus if it lies before zero, its days if there are any, and its hours, minutes and seconds in two
digits each, which make up the time. The text says no other time, so no two times are written
alike. -/
theorem render_reads_back (seconds : Int) :
    longest = Tick.greatest / 1000 ∧
    ((∃ text, render seconds = .ok text) ↔ -longest ≤ seconds ∧ seconds ≤ longest) ∧
    (∀ text, render seconds = .ok text →
      TimeText text.toList seconds ∧ (∀ other, TimeText text.toList other → other = seconds) ∧
        ∀ other, render other = .ok text → other = seconds) ∧
    ((∃ defect, render seconds = .error defect) ↔ ¬ (-longest ≤ seconds ∧ seconds ≤ longest)) ∧
    ∃ defect, render Tick.least = .error defect := by
  refine ⟨by decide, render_returns, ?_, ?_, render_of_long (by decide)⟩
  · intro text written
    have spelled := render_spelled written
    exact ⟨spelled, fun _ again => again.unique spelled,
      fun _ again => (render_spelled again).unique spelled⟩
  · constructor
    · rintro ⟨defect, stops⟩ short
      rw [render_of_short short] at stops
      cases stops
    · exact render_of_long

end GridReport.SimTime
