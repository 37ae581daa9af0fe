import GridReport.Sql.Lexer
import Mathlib.Data.List.Infix
import Mathlib.Data.List.TakeWhile

/-!
What the lexer takes off the front of a text.

The lexer looks beyond a piece only to see where the piece ends. So a piece stays the same if the
text ends anywhere after it. This is shown for each kind of piece, and then for all of them.

* `quoted_front`, `blockComment_front`, `number_front`, `symbol_front` — the kinds of pieces.
* `number_eq` — a number by its digits and its exponent.
* `piece_front` — a piece depends on nothing after it.
-/

namespace GridReport.Sql.Lexer

section Fronts

variable {test : Char → Bool} {chars rest : List Char}

/-- A run that passes ends where the text ends earlier, or at the same character. -/
theorem takeWhile_append_left (le : rest <+: chars.dropWhile test) :
    (chars.takeWhile test ++ rest).takeWhile test = chars.takeWhile test ∧
      (chars.takeWhile test ++ rest).dropWhile test = rest := by
  have passes : ∀ c ∈ chars.takeWhile test, test c := fun c here =>
    List.mem_takeWhile_imp here
  have stops : rest.takeWhile test = [] ∧ rest.dropWhile test = rest := by
    cases rest with
    | nil => exact ⟨rfl, rfl⟩
    | cons c tail =>
        obtain ⟨more, same⟩ := le
        have fails := List.head?_dropWhile_not test chars
        rw [← same] at fails
        have fails : test c = false := by simpa using fails
        simp [fails]
  rw [List.takeWhile_append_of_pos passes, List.dropWhile_append_of_pos passes, stops.1, stops.2,
    List.append_nil]
  exact ⟨rfl, rfl⟩

end Fronts

section Prefixes

variable {test : Char → Bool} {chars left : List Char}

/-- A text that is cut off behind the letters that are taken has the same taken. -/
theorem takeWhile_of_le (le : left <+: chars) (holds : chars.takeWhile test <+: left) :
    left.takeWhile test = chars.takeWhile test := by
  induction left generalizing chars with
  | nil => rw [List.prefix_nil.mp holds, List.takeWhile_nil]
  | cons c left ih =>
      obtain ⟨more, rfl⟩ := le
      rw [List.cons_append, List.takeWhile_cons, List.takeWhile_cons] at *
      split at holds
      · rename_i passes
        rw [if_pos passes, if_pos passes,
          ih ⟨more, rfl⟩ (List.cons_prefix_cons.mp holds).2]
      · rename_i fails
        rw [if_neg fails, if_neg fails]

theorem takeWhile_le_takeWhile (le : left <+: chars) :
    left.takeWhile test <+: chars.takeWhile test := by
  obtain ⟨more, rfl⟩ := le
  rw [List.takeWhile_append]
  split
  · exact (List.takeWhile_prefix _).trans (List.prefix_append _ _)
  · exact List.prefix_rfl

end Prefixes

/-- A quoted piece is taken from any text that begins with it and is cut off behind it. -/
theorem quoted_front {close : Char} {chars : List Char} {q : Quoted}
    (taken : quoted close chars = some q) :
    chars = q.source ++ q.rest ∧
      ∀ left, left <+: q.rest →
        quoted close (q.source ++ left) = some ⟨q.value, q.source, left⟩ := by
  induction chars using quoted.induct close generalizing q with
  | case1 => cases taken
  | case2 =>
      simp only [quoted, if_true] at taken
      cases taken
      refine ⟨rfl, fun left le => ?_⟩
      cases List.prefix_nil.mp le
      simp [quoted]
  | case3 after ih =>
      rw [quoted, if_pos rfl] at taken
      simp only [if_true] at taken
      obtain ⟨tail, found, rfl⟩ := Option.map_eq_some_iff.mp taken
      obtain ⟨split, front⟩ := ih found
      refine ⟨by simp [Quoted.push, ← split], fun left le => ?_⟩
      simp [Quoted.push, quoted, front left le]
  | case4 d after other =>
      rw [quoted, if_pos rfl] at taken
      simp only [if_neg other] at taken
      cases taken
      refine ⟨rfl, fun left le => ?_⟩
      rcases List.prefix_cons_iff.mp le with rfl | ⟨tail, rfl, -⟩
      · simp [quoted]
      · simp [quoted, other]
  | case5 d after other ih =>
      simp only [quoted.eq_def close (d :: after), if_neg other] at taken
      obtain ⟨tail, found, rfl⟩ := Option.map_eq_some_iff.mp taken
      obtain ⟨split, front⟩ := ih found
      refine ⟨by simp [Quoted.push, ← split], fun left le => ?_⟩
      simp [Quoted.push, quoted.eq_def close (d :: (tail.source ++ left)), front left le, other]

theorem quotedWithEscapes_front {chars : List Char} {q : Quoted}
    (taken : quotedWithEscapes chars = some q) :
    chars = q.source ++ q.rest ∧
      ∀ left, left <+: q.rest →
        quotedWithEscapes (q.source ++ left) = some ⟨q.value, q.source, left⟩ := by
  induction chars using quotedWithEscapes.induct generalizing q with
  | case1 => cases taken
  | case2 c rest ih =>
      rw [quotedWithEscapes] at taken
      obtain ⟨tail, found, rfl⟩ := Option.map_eq_some_iff.mp taken
      obtain ⟨split, front⟩ := ih found
      refine ⟨by simp [Quoted.push, ← split], fun left le => ?_⟩
      simp [Quoted.push, quotedWithEscapes, front left le]
  | case3 rest ih =>
      rw [quotedWithEscapes] at taken
      obtain ⟨tail, found, rfl⟩ := Option.map_eq_some_iff.mp taken
      obtain ⟨split, front⟩ := ih found
      refine ⟨by simp [Quoted.push, ← split], fun left le => ?_⟩
      simp [Quoted.push, quotedWithEscapes, front left le]
  | case4 rest alone =>
      rw [quotedWithEscapes.eq_4 _ alone] at taken
      cases taken
      refine ⟨rfl, fun left le => ?_⟩
      have alone_left : ∀ tail, left = '\x27' :: tail → False := by
        rintro tail rfl
        obtain ⟨more, same⟩ := le
        exact alone _ same.symm
      exact quotedWithEscapes.eq_4 _ alone_left
  | case5 c rest no_escape no_double no_close ih =>
      rw [quotedWithEscapes.eq_5 _ _ no_escape no_double no_close] at taken
      obtain ⟨tail, found, rfl⟩ := Option.map_eq_some_iff.mp taken
      obtain ⟨split, front⟩ := ih found
      refine ⟨by simp [Quoted.push, ← split], fun left le => ?_⟩
      have no_escape_left : ∀ d after, c = '\\' → tail.source ++ left = d :: after → False := by
        cases rest with
        | nil => cases found
        | cons d after => exact fun _ _ escape _ => no_escape d after escape rfl
      have no_double_left : ∀ after, c = '\x27' → tail.source ++ left = '\x27' :: after → False :=
        fun _ close _ => no_close close
      simp only [Quoted.push, List.cons_append, List.nil_append]
      rw [quotedWithEscapes.eq_5 _ _ no_escape_left no_double_left no_close, front left le]
      rfl

/-- A comment ends at its last slash, whatever comes behind. -/
theorem blockComment_front {depth : Nat} {last : Char} {chars source rest : List Char}
    (taken : blockComment depth last chars = some (source, rest)) :
    chars = source ++ rest ∧ source.getLast? = some '/' ∧
      ∀ left, blockComment depth last (source ++ left) = some (source, left) := by
  induction depth, last, chars using blockComment.induct generalizing source with
  | case1 => cases taken
  | case2 depth last d after opens ih =>
      rw [blockComment.eq_def] at taken
      simp only [if_pos opens] at taken
      obtain ⟨⟨tail, _⟩, found, same⟩ := Option.map_eq_some_iff.mp taken
      cases same
      obtain ⟨split, ends, front⟩ := ih found
      refine ⟨by simp [← split], by simp [List.getLast?_cons, ends], fun left => ?_⟩
      rw [List.cons_append, blockComment.eq_def]
      simp only [if_pos opens, front left, Option.map_some]
  | case3 last d after opens closes =>
      rw [blockComment.eq_def] at taken
      simp only [if_neg opens, if_pos closes] at taken
      cases taken
      refine ⟨rfl, by simp_all, fun left => ?_⟩
      rw [List.singleton_append, blockComment.eq_def]
      simp only [if_neg opens, if_pos closes]
  | case4 last d after opens closes outer ih =>
      rw [blockComment.eq_def] at taken
      simp only [if_neg opens, if_pos closes] at taken
      obtain ⟨⟨tail, _⟩, found, same⟩ := Option.map_eq_some_iff.mp taken
      cases same
      obtain ⟨split, ends, front⟩ := ih found
      refine ⟨by simp [← split], by simp [List.getLast?_cons, ends], fun left => ?_⟩
      rw [List.cons_append, blockComment.eq_def]
      simp only [if_neg opens, if_pos closes, front left, Option.map_some]
  | case5 depth last d after opens closes ih =>
      rw [blockComment.eq_def] at taken
      simp only [if_neg opens, if_neg closes] at taken
      obtain ⟨⟨tail, _⟩, found, same⟩ := Option.map_eq_some_iff.mp taken
      cases same
      obtain ⟨split, ends, front⟩ := ih found
      refine ⟨by simp [← split], by simp [List.getLast?_cons, ends], fun left => ?_⟩
      rw [List.cons_append, blockComment.eq_def]
      simp only [if_neg opens, if_neg closes, front left, Option.map_some]

/-- A comment to the end of the line keeps the line break, and ends where the text does. -/
theorem lineComment_front {chars line rest : List Char} (taken : lineComment chars = (line, rest)) :
    chars = line ++ rest ∧ ∀ left, left <+: rest → lineComment (line ++ left) = (line, left) := by
  rw [lineComment.eq_def] at taken
  have split := List.takeWhile_append_dropWhile (p := (· != '\n')) (l := chars)
  cases after : chars.dropWhile (· != '\n') with
  | nil =>
      simp only [after] at taken
      cases taken
      rw [after, List.append_nil] at split
      refine ⟨by rw [split, List.append_nil], fun left le => ?_⟩
      obtain ⟨same, none_left⟩ := takeWhile_append_left (after ▸ le)
      cases List.prefix_nil.mp le
      rw [lineComment.eq_def, same, none_left]
  | cons newline tail =>
      simp only [after] at taken
      cases taken
      rw [after] at split
      refine ⟨by simp [split], fun left le => ?_⟩
      have fits : newline :: left <+: chars.dropWhile (· != '\n') := by
        rw [after, List.cons_prefix_cons]
        exact ⟨rfl, le⟩
      obtain ⟨same, newline_left⟩ := takeWhile_append_left fits
      rw [List.append_assoc, List.singleton_append, lineComment.eq_def, same, newline_left]

/-- A word is taken as far as its letters reach. -/
theorem word_front {chars : List Char} {left : List Char}
    (le : left <+: chars.dropWhile continuesName) :
    word (chars.takeWhile continuesName ++ left) =
      some ⟨.word ⟨String.ofList (chars.takeWhile continuesName), none⟩,
        chars.takeWhile continuesName, left⟩ := by
  obtain ⟨taken, left_over⟩ := takeWhile_append_left le
  simp only [word, taken, left_over]

/-- The symbol at the front of a shorter text is the same if that text still holds it. -/
theorem symbol_front {chars : List Char} {p : Piece} (taken : symbol chars = some p) :
    chars = p.source ++ p.rest ∧
      ∀ left, left <+: p.rest → symbol (p.source ++ left) = some ⟨p.token, p.source, left⟩ := by
  rw [symbol.eq_def] at taken
  cases found : longSymbols.find? (·.isPrefixOf chars) with
  | some spelling =>
      simp only [found] at taken
      cases taken
      have fits : spelling <+: chars := by simpa using List.find?_some found
      obtain ⟨rest, rfl⟩ := fits
      refine ⟨by simp, fun left le => ?_⟩
      simp only [List.drop_left] at le
      obtain ⟨-, longer, shorter, all, none_longer⟩ := List.find?_eq_some_iff_append.mp found
      have again : longSymbols.find? (·.isPrefixOf (spelling ++ left)) = some spelling := by
        refine List.find?_eq_some_iff_append.mpr
          ⟨by simp, longer, shorter, all, fun other here => ?_⟩
        have no_fit := none_longer other here
        simp only [Bool.not_eq_true', ← Bool.not_eq_true, List.isPrefixOf_iff_prefix] at no_fit ⊢
        exact fun fit => no_fit (fit.trans ((List.prefix_append_right_inj spelling).mpr le))
      simp [symbol.eq_def, again]
  | none =>
      cases chars with
      | nil =>
          simp only [found] at taken
          cases taken
      | cons c rest =>
          simp only [found] at taken
          cases taken
          refine ⟨rfl, fun left le => ?_⟩
          have again : longSymbols.find? (·.isPrefixOf (c :: left)) = none := by
            rw [List.find?_eq_none] at found ⊢
            intro other here
            have no_fit := found other here
            simp only [List.isPrefixOf_iff_prefix] at no_fit ⊢
            exact fun fit => no_fit (fit.trans (List.cons_prefix_cons.mpr ⟨rfl, le⟩))
          simp [symbol.eq_def, again]

/-- The digits of a number up to its exponent, with a point among them if there is one. -/
def mantissa : List Char → List Char
  | [] => []
  | c :: rest =>
    if c.isDigit then c :: mantissa rest
    else if c = '.' then c :: rest.takeWhile Char.isDigit
    else []

theorem mantissa_le (chars : List Char) : mantissa chars <+: chars := by
  induction chars with
  | nil => exact List.prefix_rfl
  | cons c rest ih =>
      rw [mantissa]
      split
      · exact List.cons_prefix_cons.mpr ⟨rfl, ih⟩
      · split
        · exact List.cons_prefix_cons.mpr ⟨rfl, List.takeWhile_prefix _⟩
        · exact List.nil_prefix

/-- A mantissa that is not cut off is taken as before. -/
theorem mantissa_of_le {chars left : List Char} (le : left <+: chars)
    (holds : mantissa chars <+: left) : mantissa left = mantissa chars := by
  induction left generalizing chars with
  | nil => rw [List.prefix_nil.mp holds, mantissa]
  | cons c left ih =>
      obtain ⟨more, rfl⟩ := le
      rw [List.cons_append, mantissa, mantissa] at *
      split at holds
      · rename_i digit
        rw [if_pos digit, if_pos digit, ih ⟨more, rfl⟩ (List.cons_prefix_cons.mp holds).2]
      · rename_i no_digit
        rw [if_neg no_digit, if_neg no_digit]
        split at holds
        · rename_i point
          rw [if_pos point, if_pos point,
            takeWhile_of_le ⟨more, rfl⟩ (List.cons_prefix_cons.mp holds).2]
        · rename_i no_point
          rw [if_neg no_point, if_neg no_point]

/-- A sign at the front of a text, and the digits after it. -/
def signedDigits : List Char → List Char × List Char
  | [] => ([], [])
  | c :: rest =>
    if c == '+' || c == '-' then ([c], rest.takeWhile Char.isDigit)
    else ([], (c :: rest).takeWhile Char.isDigit)

/-- An exponent needs a digit, or it is none. -/
theorem exponentDigits_cons (letter : Char) (rest : List Char) :
    exponentDigits (letter :: rest) =
      if (letter = 'e' || letter = 'E') && !(signedDigits rest).2.isEmpty then
        letter :: ((signedDigits rest).1 ++ (signedDigits rest).2)
      else [] := by
  rw [exponentDigits]
  by_cases exponent : letter = 'e' || letter = 'E'
  · cases rest with
    | nil => simp [signedDigits]
    | cons c rest =>
        by_cases sign : c == '+' || c == '-'
        · cases digits : rest.takeWhile Char.isDigit with
          | nil => simp [signedDigits, exponent, sign, digits]
          | cons => simp [signedDigits, exponent, sign, digits]
        · cases digits : (c :: rest).takeWhile Char.isDigit with
          | nil => simp [signedDigits, exponent, sign, digits]
          | cons => simp [signedDigits, exponent, sign, digits]
  · simp [exponent]

theorem signedDigits_le (chars : List Char) :
    (signedDigits chars).1 ++ (signedDigits chars).2 <+: chars := by
  cases chars with
  | nil => exact List.prefix_rfl
  | cons c rest =>
      rw [signedDigits]
      split
      · exact List.cons_prefix_cons.mpr ⟨rfl, List.takeWhile_prefix _⟩
      · exact List.takeWhile_prefix _

theorem exponentDigits_le (chars : List Char) : exponentDigits chars <+: chars := by
  cases chars with
  | nil => exact List.prefix_rfl
  | cons letter rest =>
      rw [exponentDigits_cons]
      split
      · exact List.cons_prefix_cons.mpr ⟨rfl, signedDigits_le rest⟩
      · exact List.nil_prefix

/-- A shorter text has no digits if the longer one has none, and the same if it holds them. -/
theorem signedDigits_of_le {chars left : List Char} (le : left <+: chars) :
    ((signedDigits chars).2 = [] → (signedDigits left).2 = []) ∧
      ((signedDigits chars).1 ++ (signedDigits chars).2 <+: left →
        signedDigits left = signedDigits chars) := by
  cases left with
  | nil =>
      refine ⟨fun _ => rfl, fun holds => ?_⟩
      have := List.append_eq_nil_iff.mp (List.prefix_nil.mp holds)
      exact Prod.ext this.1.symm this.2.symm
  | cons c left =>
      obtain ⟨more, rfl⟩ := le
      have le : left <+: left ++ more := ⟨more, rfl⟩
      rw [List.cons_append, signedDigits, signedDigits]
      split
      · refine ⟨fun none_there => ?_, fun holds => ?_⟩
        · exact List.prefix_nil.mp (none_there ▸ takeWhile_le_takeWhile le)
        · rw [takeWhile_of_le le (List.cons_prefix_cons.mp holds).2]
      · have le : c :: left <+: c :: (left ++ more) := ⟨more, rfl⟩
        refine ⟨fun none_there => ?_, fun holds => ?_⟩
        · exact List.prefix_nil.mp (none_there ▸ takeWhile_le_takeWhile le)
        · rw [takeWhile_of_le le holds]

/-- An exponent that is not cut off is taken as before. -/
theorem exponentDigits_of_le {chars left : List Char} (le : left <+: chars)
    (holds : exponentDigits chars <+: left) : exponentDigits left = exponentDigits chars := by
  cases left with
  | nil => rw [List.prefix_nil.mp holds, exponentDigits]
  | cons letter left =>
      obtain ⟨more, rfl⟩ := le
      obtain ⟨no_more, the_same⟩ := signedDigits_of_le (List.prefix_append left more)
      rw [List.cons_append, exponentDigits_cons, exponentDigits_cons] at *
      split at holds
      · rename_i exponent
        rw [the_same (List.cons_prefix_cons.mp holds).2]
      · rename_i no_exponent
        rw [if_neg no_exponent, if_neg]
        intro exponent
        simp only [Bool.and_eq_true, Bool.not_eq_true', List.isEmpty_eq_false_iff, not_and,
          not_not] at exponent no_exponent
        exact exponent.2 (no_more (no_exponent exponent.1))

/-- A number in base sixteen starts with its mark. -/
theorem number_hex (rest : List Char) :
    number ('0' :: 'x' :: rest) =
      some ⟨.hexNumber (String.ofList (rest.takeWhile isHexDigit)),
        '0' :: 'x' :: rest.takeWhile isHexDigit, rest.dropWhile isHexDigit⟩ := by
  simp [number]

/-- The piece of a number by its digits and the text after them. -/
def numbered (digits : List Char) : List Char → Option Piece
  | 'L' :: after => some ⟨.number (String.ofList digits) true, digits ++ ['L'], after⟩
  | rest => some ⟨.number (String.ofList digits) false, digits, rest⟩

/-- The point at the front of a text, if there is one. -/
def pointAt (chars : List Char) : List Char := (chars.take 1).filter (· == '.')

/-- The digits after the point at the front of a text. -/
def fraction (chars : List Char) : List Char :=
  if (pointAt chars).isEmpty then []
  else (chars.drop (pointAt chars).length).takeWhile Char.isDigit

/-- A mantissa is digits, a point and digits, each of which may be missing. -/
theorem mantissa_eq (chars : List Char) :
    mantissa chars = chars.takeWhile Char.isDigit ++ pointAt (chars.dropWhile Char.isDigit) ++
      fraction (chars.dropWhile Char.isDigit) := by
  induction chars with
  | nil => rfl
  | cons c rest ih =>
      by_cases digit : c.isDigit
      · simp [mantissa, digit, ih]
      · by_cases dot : c = '.'
        · simp [mantissa, dot, pointAt, fraction]
        · simp [mantissa, digit, dot, pointAt, fraction]

/-- A decimal number is its digits and what may follow them, unless it is a point alone. -/
theorem number_eq {chars : List Char} (decimal : ∀ rest, chars ≠ '0' :: 'x' :: rest) :
    number chars =
      if mantissa chars = ['.'] then some ⟨.symbol ".", ['.'], chars.drop 1⟩
      else
        let digits := mantissa chars ++ exponentDigits (chars.drop (mantissa chars).length)
        numbered digits (chars.drop digits.length) := by
  have split := List.takeWhile_append_dropWhile (p := Char.isDigit) (l := chars)
  have all := mantissa_eq chars
  rw [number]
  generalize chars.takeWhile Char.isDigit = head at split all ⊢
  generalize chars.dropWhile Char.isDigit = after at split all ⊢
  split
  · exact absurd split.symm (decimal _)
  have past (n : Nat) : (after.drop (pointAt after).length).drop ((fraction after).length + n) =
      chars.drop ((mantissa chars).length + n) := by
    rw [all, ← split, List.drop_drop, List.length_append, List.length_append, Nat.add_assoc,
      Nat.add_assoc, List.drop_length_add_append, ← Nat.add_assoc]
  have rest_eq := past 0
  rw [Nat.add_zero, Nat.add_zero] at rest_eq
  have point_eq : (after.take 1).filter (· == '.') = pointAt after := rfl
  have fraction_eq : (if (pointAt after).isEmpty = true then []
    else (after.drop (pointAt after).length).takeWhile Char.isDigit) = fraction after := rfl
  simp only [point_eq, fraction_eq, ← all, beq_iff_eq]
  by_cases point : mantissa chars = ['.']
  · have alone : fraction after = [] := by
      by_contra some_digits
      have dotted : (pointAt after).length ≠ 0 := by
        rw [fraction] at some_digits
        split at some_digits
        · exact absurd rfl some_digits
        · rename_i dotted
          simpa using dotted
      have one := congrArg List.length (all.symm.trans point)
      have := List.length_pos_iff.mpr some_digits
      simp only [List.length_append, List.length_singleton] at one
      omega
    rw [alone, point] at rest_eq
    simpa [point] using rest_eq
  · simp only [point, if_false, past, rest_eq, List.length_append]
    generalize exponentDigits (chars.drop (mantissa chars).length) = power
    generalize chars.drop _ = rest
    split
    · rfl
    · rename_i no_suffix
      exact (numbered.eq_2 _ _ no_suffix).symm

/-- The digits of a number with its exponent. -/
def digitsOf (chars : List Char) : List Char :=
  mantissa chars ++ exponentDigits (chars.drop (mantissa chars).length)

theorem digitsOf_le (chars : List Char) : digitsOf chars <+: chars := by
  have power := (List.prefix_append_right_inj (mantissa chars)).mpr
    (exponentDigits_le (chars.drop (mantissa chars).length))
  rwa [List.prefix_iff_eq_append.mp (mantissa_le chars)] at power

theorem digitsOf_of_le {chars left : List Char} (le : left <+: chars)
    (holds : digitsOf chars <+: left) :
    mantissa left = mantissa chars ∧ digitsOf left = digitsOf chars := by
  have same : mantissa left = mantissa chars :=
    mantissa_of_le le ((List.prefix_append _ _).trans holds)
  have power := holds.drop (mantissa chars).length
  rw [digitsOf, List.drop_left] at power
  rw [digitsOf, digitsOf, same, exponentDigits_of_le (le.drop _) power]
  exact ⟨rfl, rfl⟩

theorem decimal_of_le {chars left : List Char} (decimal : ∀ rest, chars ≠ '0' :: 'x' :: rest)
    (le : left <+: chars) : ∀ rest, left ≠ '0' :: 'x' :: rest := by
  rintro rest rfl
  obtain ⟨more, rfl⟩ := le
  exact decimal _ rfl

/-- What follows the digits of a number may be cut off anywhere. -/
theorem number_of_digits {chars after left : List Char}
    (decimal : ∀ rest, chars ≠ '0' :: 'x' :: rest) (no_point : mantissa chars ≠ ['.'])
    (split : digitsOf chars ++ after = chars) (le : left <+: after) :
    number (digitsOf chars ++ left) = numbered (digitsOf chars) left := by
  have shorter := (List.prefix_append_right_inj (digitsOf chars)).mpr le
  rw [split] at shorter
  obtain ⟨same, digits⟩ := digitsOf_of_le shorter (List.prefix_append _ _)
  rw [number_eq (decimal_of_le decimal shorter), same, if_neg no_point]
  simp only
  rw [← same, ← digitsOf, digits, List.drop_left]

/-- Digits with a letter behind them are a number of their own. -/
theorem numbered_front {digits after : List Char} {p : Piece}
    (taken : numbered digits after = some p) :
    ∃ suffix, p.source = digits ++ suffix ∧ after = suffix ++ p.rest ∧
      ∀ left, left <+: p.rest →
        numbered digits (suffix ++ left) = some ⟨p.token, p.source, left⟩ := by
  rw [numbered.eq_def] at taken
  split at taken
  · cases taken
    exact ⟨['L'], rfl, rfl, fun left _ => rfl⟩
  · rename_i no_suffix
    cases taken
    refine ⟨[], (List.append_nil _).symm, rfl, fun left le => numbered.eq_2 _ _ ?_⟩
    rintro tail rfl
    obtain ⟨more, same⟩ := le
    exact no_suffix _ same.symm

/-- A number is taken from any text that begins with it and is cut off behind it. -/
theorem number_front {chars : List Char} {p : Piece} (taken : number chars = some p) :
    chars = p.source ++ p.rest ∧
      ∀ left, left <+: p.rest → number (p.source ++ left) = some ⟨p.token, p.source, left⟩ := by
  by_cases hex : ∃ rest, chars = '0' :: 'x' :: rest
  · obtain ⟨rest, rfl⟩ := hex
    rw [number_hex] at taken
    cases taken
    refine ⟨by simp, fun left le => ?_⟩
    obtain ⟨digits, left_over⟩ := takeWhile_append_left le
    rw [List.cons_append, List.cons_append, number_hex, digits, left_over]
  have decimal : ∀ rest, chars ≠ '0' :: 'x' :: rest := fun rest same => hex ⟨rest, same⟩
  by_cases point : mantissa chars = ['.']
  · rw [number_eq decimal, if_pos point] at taken
    cases taken
    obtain ⟨tail, split⟩ := mantissa_le chars
    rw [point] at split
    subst split
    refine ⟨rfl, fun left le => ?_⟩
    have shorter : '.' :: left <+: '.' :: tail := List.cons_prefix_cons.mpr ⟨rfl, le⟩
    have same := mantissa_of_le shorter (point ▸ List.prefix_append ['.'] left)
    change number ('.' :: left) = _
    rw [number_eq (decimal_of_le decimal shorter), if_pos (same.trans point)]
    rfl
  · obtain ⟨after, split⟩ := digitsOf_le chars
    rw [← split, number_of_digits decimal point split List.prefix_rfl] at taken
    obtain ⟨suffix, source_eq, rfl, fronts⟩ := numbered_front taken
    refine ⟨by rw [source_eq, List.append_assoc, split], fun left le => ?_⟩
    have shorter := (List.prefix_append_right_inj suffix).mpr le
    rw [source_eq, List.append_assoc, number_of_digits decimal point split shorter, fronts left le,
      source_eq]

theorem number_source_ne_nil {c : Char} {rest : List Char} {p : Piece}
    (numeric : c.isDigit || c = '.') (taken : number (c :: rest) = some p) : p.source ≠ [] := by
  by_cases hex : ∃ tail, c :: rest = '0' :: 'x' :: tail
  · obtain ⟨tail, same⟩ := hex
    rw [same, number_hex] at taken
    cases taken
    exact List.cons_ne_nil _ _
  have digits : mantissa (c :: rest) ≠ [] := by
    rw [mantissa]
    by_cases digit : c.isDigit
    · simp [digit]
    · simp_all
  rw [number_eq fun tail same => hex ⟨tail, same⟩] at taken
  split at taken
  · cases taken
    exact List.cons_ne_nil _ _
  · simp only [numbered.eq_def] at taken
    split at taken <;> cases taken <;> simp [digits]

theorem symbol_source_ne_nil {chars : List Char} {p : Piece} (taken : symbol chars = some p) :
    p.source ≠ [] := by
  have spelled : ∀ spelling ∈ longSymbols, spelling ≠ [] := by decide
  rw [symbol.eq_def] at taken
  cases found : longSymbols.find? (·.isPrefixOf chars) with
  | some spelling =>
      simp only [found] at taken
      cases taken
      exact spelled spelling (List.mem_of_find?_eq_some found)
  | none =>
      cases chars with
      | nil =>
          simp only [found] at taken
          cases taken
      | cons c rest =>
          simp only [found] at taken
          cases taken
          exact List.cons_ne_nil _ _

/-- The piece at the front of a text that opens neither a quote nor a comment. -/
def otherPiece (c : Char) (rest : List Char) : Option Piece :=
  if c = ' ' || c = '\t' || c = '\n' || c = '\r' then some ⟨.blank, [c], rest⟩
  else if startsName c then word (c :: rest)
  else if c.isDigit || c = '.' then number (c :: rest)
  else if Text.isBlank c then some ⟨.blank, [c], rest⟩
  else symbol (c :: rest)

/-- What the step takes off the front of a text after an opening, whatever comes after it. -/
def Front (step : List Char → Option Piece) (opening rest : List Char) (p : Piece) : Prop :=
  ∃ source, p.source = opening ++ source ∧ rest = source ++ p.rest ∧
    ∀ left, left <+: p.rest → step (source ++ left) = some ⟨p.token, p.source, left⟩

section Openings

variable {opening rest : List Char} {p : Piece}

/-- So is a literal, if its body is. -/
theorem literal_front {kind : String → Token} {body : List Char → Option Quoted}
    (taken : literal kind opening (body rest) = some p)
    (front : ∀ q, body rest = some q → rest = q.source ++ q.rest ∧
      ∀ left, left <+: q.rest → body (q.source ++ left) = some ⟨q.value, q.source, left⟩) :
    Front (fun chars => literal kind opening (body chars)) opening rest p := by
  obtain ⟨q, found, rfl⟩ := Option.map_eq_some_iff.mp taken
  obtain ⟨split, again⟩ := front q found
  refine ⟨q.source, rfl, split, fun left le => ?_⟩
  simp only [again left le, literal, Option.map_some]

theorem escaped_front {kind : String → Token}
    (taken : literal kind opening (quotedWithEscapes rest) = some p) :
    Front (fun chars => literal kind opening (quotedWithEscapes chars)) opening rest p :=
  literal_front taken fun _ => quotedWithEscapes_front

/-- So is a word in quotes, -/
theorem quotedWord_front {mark close : Char} (taken : quotedWord mark close rest = some p) :
    Front (quotedWord mark close) [mark] rest p := by
  obtain ⟨q, found, rfl⟩ := Option.map_eq_some_iff.mp taken
  obtain ⟨split, again⟩ := quoted_front found
  exact ⟨q.source, rfl, split, fun left le => by rw [quotedWord, again left le, Option.map_some]⟩

/-- and any other piece. -/
theorem otherPiece_front {c : Char} (taken : otherPiece c rest = some p) :
    Front (otherPiece c) [c] rest p := by
  rw [otherPiece] at taken
  split at taken
  · rename_i blank
    cases taken
    exact ⟨[], rfl, rfl, fun left _ => by rw [otherPiece, if_pos blank]; rfl⟩
  rename_i no_blank
  split at taken
  · rename_i name
    cases taken
    have continues : continuesName c := by simp [continuesName, name]
    have source_eq : (c :: rest).takeWhile continuesName = c :: rest.takeWhile continuesName := by
      rw [List.takeWhile_cons, if_pos continues]
    refine ⟨rest.takeWhile continuesName, source_eq, by simp [continues], fun left le => ?_⟩
    rw [otherPiece, if_neg no_blank, if_pos name, ← List.cons_append, ← source_eq]
    exact word_front le
  rename_i no_name
  split at taken
  · rename_i numeric
    obtain ⟨split, front⟩ := number_front taken
    obtain ⟨source, spelled⟩ := (List.cons_eq_append_iff.mp split).resolve_left
      fun none_taken => number_source_ne_nil numeric taken none_taken.1
    refine ⟨source, spelled.1, spelled.2, fun left le => ?_⟩
    rw [otherPiece, if_neg no_blank, if_neg no_name, if_pos numeric, ← front left le, spelled.1,
      List.cons_append]
  rename_i no_number
  split at taken
  · rename_i blank
    cases taken
    exact ⟨[], rfl, rfl, fun left _ => by
      rw [otherPiece, if_neg no_blank, if_neg no_name, if_neg no_number, if_pos blank]; rfl⟩
  · rename_i no_space
    obtain ⟨split, front⟩ := symbol_front taken
    obtain ⟨source, spelled⟩ := (List.cons_eq_append_iff.mp split).resolve_left
      fun none_taken => symbol_source_ne_nil taken none_taken.1
    refine ⟨source, spelled.1, spelled.2, fun left le => ?_⟩
    rw [otherPiece, if_neg no_blank, if_neg no_name, if_neg no_number, if_neg no_space,
      ← front left le, spelled.1, List.cons_append]

/-- A step that decides the piece after an opening. -/
theorem Front.piece {step : List Char → Option Piece} (front : Front step opening rest p)
    (opened : opening ≠ [])
    (decides : ∀ left, left <+: rest → piece (opening ++ left) = step left) :
    opening ++ rest = p.source ++ p.rest ∧ p.source ≠ [] ∧
      ∀ left, left <+: p.rest → piece (p.source ++ left) = some ⟨p.token, p.source, left⟩ := by
  obtain ⟨source, spelled, rfl, again⟩ := front
  refine ⟨by rw [spelled, List.append_assoc], by simp [spelled, opened], fun left le => ?_⟩
  rw [spelled, List.append_assoc, ← spelled, ← again left le]
  exact decides _ ((List.prefix_append_right_inj source).mpr le)

end Openings

/-- **A piece depends on nothing after it.** It stands at the front of the text, and a text that
ends anywhere after it has the same piece there. -/
theorem piece_front {chars : List Char} {p : Piece} (taken : piece chars = some p) :
    chars = p.source ++ p.rest ∧ p.source ≠ [] ∧
      ∀ left, left <+: p.rest → piece (p.source ++ left) = some ⟨p.token, p.source, left⟩ := by
  rw [piece.eq_def] at taken
  split at taken
  case h_1 => cases taken
  case h_2 =>
    cases taken
    exact ⟨rfl, by simp, fun left _ => piece.eq_2 left⟩
  case h_3 rest =>
    cases commented : lineComment rest with
    | mk line after =>
      rw [commented] at taken
      cases taken
      obtain ⟨split, front⟩ := lineComment_front commented
      refine ⟨by simp [split], by simp, fun left le => ?_⟩
      simp [piece, front left le]
  case h_4 rest =>
    obtain ⟨⟨source, after⟩, found, rfl⟩ := Option.map_eq_some_iff.mp taken
    obtain ⟨split, -, front⟩ := blockComment_front found
    refine ⟨by simp [split], by simp, fun left le => ?_⟩
    simp [piece, front left]
  case h_5 =>
    exact (literal_front taken fun _ => quoted_front).piece (by simp) fun left _ => piece.eq_5 left
  case h_6 => exact (escaped_front taken).piece (by simp) fun left _ => piece.eq_6 left
  case h_7 => exact (escaped_front taken).piece (by simp) fun left _ => piece.eq_7 left
  case h_8 => exact (escaped_front taken).piece (by simp) fun left _ => piece.eq_8 left
  case h_9 => exact (escaped_front taken).piece (by simp) fun left _ => piece.eq_9 left
  case h_10 => exact (escaped_front taken).piece (by simp) fun left _ => piece.eq_10 left
  case h_11 => exact (escaped_front taken).piece (by simp) fun left _ => piece.eq_11 left
  case h_12 => exact (quotedWord_front taken).piece (by simp) fun left _ => piece.eq_12 left
  case h_13 => exact (quotedWord_front taken).piece (by simp) fun left _ => piece.eq_13 left
  case h_14 => exact (quotedWord_front taken).piece (by simp) fun left _ => piece.eq_14 left
  case h_15 rest =>
    cases taken
    refine ⟨by simp, by simp, fun left le => ?_⟩
    obtain ⟨digits, left_over⟩ := takeWhile_append_left le
    rw [List.cons_append, piece.eq_15]
    simp only [digits, left_over]
  case h_16 c rest newline dashes star single n N e E x X double grave bracket mark =>
    refine (otherPiece_front taken).piece (by simp) fun left le => ?_
    -- no opening of two characters comes about where the text ends earlier
    have lift : ∀ {a d : Char}, (∀ tail, c = a → rest = d :: tail → False) →
        ∀ after, c = a → left = d :: after → False := by
      rintro a d none_there after is rfl
      obtain ⟨more, rfl⟩ := le
      exact none_there _ is rfl
    exact piece.eq_16 c _ (lift newline) (lift dashes) (lift star) single (lift n) (lift N) (lift e)
      (lift E) (lift x) (lift X) double grave bracket mark

end GridReport.Sql.Lexer
