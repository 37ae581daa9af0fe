import GridReport.Proofs.Binding
import GridReport.Proofs.LexerFronts
import Mathlib.Data.List.DropRight

/-!
Which texts are read the same after they are trimmed.

The check reads a text as it is given, and a query keeps it without the white space at its ends. For
the lexer some of this white space belongs to names: what is white space by the Unicode property and
no ASCII character may stand in a word. A text keeps its tokens if none of them loses a character.

* `cut_cons` — the pieces of a text, one after the other.
* `lexemes_dropWhile`, `cut_append_blank` — white space in front of a text and at its end.
* `lex_trim`, `parse_trim` — the tokens and the statements of a trimmed text.
* `ofText_trim` — the stored text of a query is accepted again, `trimmed_placeholder` — not always.
-/

namespace GridReport.Sql

namespace Lexer

/-! ### Pieces in a row -/

/-- The pieces of a list of characters. -/
def cut (chars : List Char) : Option (List Piece) := piecesFrom chars chars.length

/-- A piece takes at least one character. -/
theorem length_rest_lt {chars : List Char} {p : Piece} (taken : piece chars = some p) :
    p.rest.length < chars.length := by
  obtain ⟨split, some_taken, -⟩ := piece_front taken
  have := congrArg List.length split
  have := List.length_pos_iff.mpr some_taken
  rw [List.length_append] at *
  omega

theorem piecesFrom_cons (c : Char) (rest : List Char) (fuel : Nat) :
    piecesFrom (c :: rest) (fuel + 1) =
      (piece (c :: rest)).bind fun p => (piecesFrom p.rest fuel).map (p :: ·) :=
  piecesFrom.eq_3 _ _ (by simp)

/-- More fuel than characters makes no difference. -/
theorem piecesFrom_eq_cut {chars : List Char} {fuel : Nat} (enough : chars.length ≤ fuel) :
    piecesFrom chars fuel = cut chars := by
  induction fuel using Nat.strongRecOn generalizing chars with
  | ind fuel ih =>
    cases chars with
    | nil => cases fuel <;> rfl
    | cons c rest =>
      cases fuel with
      | zero => simp at enough
      | succ fuel =>
        rw [cut, List.length_cons, piecesFrom_cons, piecesFrom_cons]
        cases taken : piece (c :: rest) with
        | none => rfl
        | some p =>
          have shorter := length_rest_lt taken
          rw [List.length_cons] at shorter enough
          rw [Option.bind_some, Option.bind_some, ih fuel (by omega) (by omega),
            ih rest.length (by omega) (by omega)]

theorem cut_cons (c : Char) (rest : List Char) :
    cut (c :: rest) = (piece (c :: rest)).bind fun p => (cut p.rest).map (p :: ·) := by
  rw [cut, List.length_cons, piecesFrom_cons]
  cases taken : piece (c :: rest) with
  | none => rfl
  | some p =>
    have shorter := length_rest_lt taken
    rw [List.length_cons] at shorter
    rw [Option.bind_some, Option.bind_some, piecesFrom_eq_cut (by omega)]

/-- A text is cut piece by piece. -/
theorem cut_of_piece {chars : List Char} {p : Piece} (taken : piece chars = some p) :
    cut chars = (cut p.rest).map (p :: ·) := by
  cases chars with
  | nil => cases taken
  | cons c rest => rw [cut_cons, taken, Option.bind_some]

/-- The pieces after the first one. -/
theorem cut_eq_cons {chars : List Char} {p : Piece} {ps : List Piece}
    (pieced : cut chars = some (p :: ps)) : piece chars = some p ∧ cut p.rest = some ps := by
  cases chars with
  | nil => cases pieced
  | cons c rest =>
    rw [cut_cons] at pieced
    obtain ⟨first, taken, others⟩ := Option.bind_eq_some_iff.mp pieced
    obtain ⟨tail, pieced, same⟩ := Option.map_eq_some_iff.mp others
    cases same
    exact ⟨taken, pieced⟩

theorem cut_eq_nil {chars : List Char} (pieced : cut chars = some []) : chars = [] := by
  cases chars with
  | nil => rfl
  | cons c rest =>
    rw [cut_cons] at pieced
    obtain ⟨first, -, others⟩ := Option.bind_eq_some_iff.mp pieced
    obtain ⟨tail, -, same⟩ := Option.map_eq_some_iff.mp others
    cases same

/-- Every piece is a part of the text, and taken off the front of what is left of it. -/
theorem of_mem_cut {chars : List Char} {ps : List Piece} (pieced : cut chars = some ps) :
    ∀ p ∈ ps, p.source ⊆ chars ∧ ∃ left, piece left = some p := by
  induction ps generalizing chars with
  | nil => simp
  | cons first rest ih =>
    obtain ⟨taken, pieced⟩ := cut_eq_cons pieced
    obtain ⟨split, -, -⟩ := piece_front taken
    rw [List.forall_mem_cons]
    refine ⟨⟨?_, chars, taken⟩, fun p here => ⟨?_, (ih pieced p here).2⟩⟩
    · rw [split]
      exact List.subset_append_left _ _
    · rw [split]
      exact List.subset_append_of_subset_right _ (ih pieced p here).1

/-- The tokens of a text are those of its pieces. -/
theorem lex_eq (text : String) : lex text = (cut text.toList).map (lexemesFrom 0 []) := by
  rw [lex, pieces, cut, String.length_toList]

/-- What stands in front of the first token is left out. -/
theorem lexemesFrom_zero (gap : List Char) (ps : List Piece) :
    lexemesFrom 0 gap ps = lexemesFrom 0 [] ps := by
  induction ps generalizing gap with
  | nil => rfl
  | cons p rest ih =>
    rw [lexemesFrom, lexemesFrom]
    split
    · rw [ih, ih ([] ++ p.source)]
    · rfl

/-- Every token is a piece. -/
theorem of_mem_lexemesFrom {index : Nat} {gap : List Char} {ps : List Piece} {lexeme : Lexeme}
    (here : lexeme ∈ lexemesFrom index gap ps) :
    ∃ p ∈ ps, lexeme.token = p.token ∧ lexeme.source = String.ofList p.source := by
  induction ps generalizing index gap with
  | nil => cases here
  | cons p rest ih =>
    rw [lexemesFrom] at here
    split at here
    · obtain ⟨other, listed, same⟩ := ih here
      exact ⟨other, List.mem_cons_of_mem _ listed, same⟩
    · rcases List.mem_cons.mp here with rfl | later
      · exact ⟨p, List.mem_cons_self, rfl, rfl⟩
      · obtain ⟨other, listed, same⟩ := ih later
        exact ⟨other, List.mem_cons_of_mem _ listed, same⟩

/-! ### White space in front -/

/-- No digit is blank. -/
theorem isDigit_of_blank {c : Char} (blank : Text.isBlank c) : c.isDigit = false := by
  cases digit : c.isDigit with
  | false => rfl
  | true =>
    have zero : ('0' : Char).val.toNat = 48 := rfl
    have nine : ('9' : Char).val.toNat = 57 := rfl
    simp only [Char.isDigit, ge_iff_le, Bool.and_eq_true, decide_eq_true_eq,
      UInt32.le_iff_toNat_le] at digit
    simp only [Text.isBlank, Text.blankRanges, List.any_cons, List.any_nil, Bool.or_eq_true,
      Bool.and_eq_true, decide_eq_true_eq, Bool.or_false, Char.toNat] at blank
    omega

section Leading

variable {c : Char} {rest : List Char}

/-- A text that starts with white space opens neither a quote nor a comment. -/
theorem piece_of_blank (blank : Text.isBlank c) (single : ∀ tail, c = '\r' → rest ≠ '\n' :: tail) :
    piece (c :: rest) = otherPiece c rest := by
  have other : ∀ d, Text.isBlank d = false → c ≠ d := by
    rintro d plain rfl
    rw [blank] at plain
    cases plain
  have never : ∀ {d e : Char}, Text.isBlank d = false → ∀ tail, c = d → rest = e :: tail → False :=
    fun plain _ same => absurd same (other _ plain)
  exact piece.eq_16 c rest single (never (by decide)) (never (by decide)) (other _ (by decide))
    (never (by decide)) (never (by decide)) (never (by decide)) (never (by decide))
    (never (by decide)) (never (by decide)) (other _ (by decide)) (other _ (by decide))
    (other _ (by decide)) (other _ (by decide))

/-- White space that may stand in a name is a part of one. -/
theorem piece_of_name (blank : Text.isBlank c) (name : startsName c) :
    piece (c :: rest) = word (c :: rest) := by
  have other : ∀ d, startsName d = false → c ≠ d := by
    rintro d plain rfl
    rw [name] at plain
    cases plain
  rw [piece_of_blank blank fun _ same => absurd same (other _ (by decide)), otherPiece,
    if_neg, if_pos name]
  simp [other ' ' (by decide), other '\t' (by decide), other '\n' (by decide),
    other '\r' (by decide)]

/-- A blank piece makes no difference in front of a text. -/
theorem lexemes_of_blank {chars source left : List Char}
    (taken : piece chars = some ⟨.blank, source, left⟩) :
    (cut chars).map (lexemesFrom 0 []) = (cut left).map (lexemesFrom 0 []) := by
  have skipped : lexemesFrom 0 [] ∘ (Piece.mk .blank source left :: ·) = lexemesFrom 0 [] := by
    funext ps
    rw [Function.comp_apply, lexemesFrom, if_pos rfl, lexemesFrom_zero]
  rw [cut_of_piece taken, Option.map_map, skipped]

/-- White space that may not stand in a name makes no difference in front of a text. -/
theorem lexemes_of_space (blank : Text.isBlank c) (plain : startsName c = false) :
    (cut (c :: rest)).map (lexemesFrom 0 []) = (cut rest).map (lexemesFrom 0 []) := by
  have other (left : List Char) : otherPiece c left = some ⟨.blank, [c], left⟩ := by
    have no_point : c ≠ '.' := by
      rintro rfl
      cases blank
    simp [otherPiece, plain, blank, isDigit_of_blank blank, no_point]
  by_cases single : ∀ tail, c = '\r' → rest ≠ '\n' :: tail
  · apply lexemes_of_blank
    rw [piece_of_blank blank single, other]
  · -- the line break of two characters is a line break without its first character
    simp only [not_forall, not_not] at single
    obtain ⟨tail, rfl, rfl⟩ := single
    rw [lexemes_of_blank (piece.eq_2 tail)]
    symm
    apply lexemes_of_blank
    rw [piece_of_blank (by decide) (by simp)]
    rfl

/-- White space in front of a text makes no difference if no token starts with it. -/
theorem lexemes_dropWhile {chars : List Char} {lexemes : List Lexeme}
    (lexed : (cut chars).map (lexemesFrom 0 []) = some lexemes)
    (plain : ∀ lexeme ∈ lexemes.head?, ∀ c ∈ lexeme.source.toList.head?, Text.isBlank c = false) :
    (cut (chars.dropWhile Text.isBlank)).map (lexemesFrom 0 []) = some lexemes := by
  induction chars with
  | nil => exact lexed
  | cons c rest ih =>
    rw [List.dropWhile_cons]
    split
    · rename_i blank
      by_cases name : startsName c
      · -- a token starts here, and with white space
        obtain ⟨ps, pieced, rfl⟩ := Option.map_eq_some_iff.mp lexed
        rw [cut_of_piece (piece_of_name blank name)] at pieced
        obtain ⟨others, -, rfl⟩ := Option.map_eq_some_iff.mp pieced
        have continues : continuesName c := by simp [continuesName, name]
        have bare := plain _ rfl c (by simp [continues])
        rw [blank] at bare
        cases bare
      · apply ih
        rw [← lexemes_of_space blank (by simpa using name), lexed]
    · exact lexed

end Leading

/-! ### White space at the end -/

/-- Where a comment to the end of the line ends, nothing but its last character breaks the line. -/
theorem lineComment_of_append {chars line rest before after : List Char}
    (taken : lineComment chars = (line, rest)) (split : line = before ++ after)
    (more : after ≠ []) : lineComment before = (before, []) := by
  have passes : ∀ c ∈ before, (c != '\n') = true := by
    have inside : before <+: chars.takeWhile (· != '\n') := by
      have shorter : before <+: line := split ▸ List.prefix_append before after
      rw [lineComment.eq_def] at taken
      split at taken
      · cases taken
        rcases List.prefix_concat_iff.mp shorter with same | shorter
        · exact absurd (List.append_right_eq_self.mp (split.symm.trans same.symm)) more
        · exact shorter
      · cases taken
        exact shorter
    intro c here
    have passed := List.mem_takeWhile_imp (p := (· != '\n')) (inside.subset here)
    exact passed
  rw [lineComment.eq_def, List.takeWhile_eq_self_iff.mpr passes,
    List.dropWhile_eq_nil_iff.mpr passes]

theorem number_token {chars : List Char} {p : Piece} (taken : number chars = some p) :
    p.token ≠ .blank := by
  by_cases hex : ∃ rest, chars = '0' :: 'x' :: rest
  · obtain ⟨rest, rfl⟩ := hex
    rw [number_hex] at taken
    cases taken
    simp
  · rw [number_eq fun rest same => hex ⟨rest, same⟩] at taken
    split at taken
    · cases taken
      simp
    · simp only [numbered.eq_def] at taken
      split at taken <;> cases taken <;> simp

theorem symbol_token {chars : List Char} {p : Piece} (taken : symbol chars = some p) :
    p.token ≠ .blank := by
  rw [symbol.eq_def] at taken
  split at taken
  · cases taken
    simp
  · cases taken
    simp
  · cases taken

/-- A blank piece is one character, which starts no name. -/
theorem otherPiece_blank {c : Char} {rest : List Char} {p : Piece}
    (taken : otherPiece c rest = some p) (blank : p.token = .blank) :
    p.source = [c] ∧ Text.isBlank c ∧ startsName c = false := by
  rw [otherPiece] at taken
  split at taken
  · rename_i space
    cases taken
    simp only [Bool.or_eq_true, decide_eq_true_eq] at space
    rcases space with ((rfl | rfl) | rfl) | rfl <;> exact ⟨rfl, by decide⟩
  split at taken
  · cases taken
    cases blank
  rename_i plain
  split at taken
  · exact absurd blank (number_token taken)
  split at taken
  · rename_i space
    cases taken
    exact ⟨rfl, space, by simpa using plain⟩
  · exact absurd blank (symbol_token taken)

/-- A blank piece is white space, a comment to the end of the line, or a comment with an end. -/
theorem blank_piece {chars : List Char} {p : Piece} (taken : piece chars = some p)
    (blank : p.token = .blank) :
    (∀ c ∈ p.source, Text.isBlank c) ∨ p.source.getLast? = some '/' ∨
      ∃ line, p.source = '-' :: '-' :: line ∧ ∃ rest, lineComment rest = (line, p.rest) := by
  rw [piece.eq_def] at taken
  split at taken
  case h_1 => cases taken
  case h_2 =>
    cases taken
    exact .inl (List.all_eq_true.mp rfl)
  case h_3 rest =>
    cases commented : lineComment rest with
    | mk line after =>
      rw [commented] at taken
      cases taken
      exact .inr (.inr ⟨line, rfl, rest, commented⟩)
  case h_4 rest =>
    obtain ⟨⟨source, after⟩, found, rfl⟩ := Option.map_eq_some_iff.mp taken
    obtain ⟨-, ends, -⟩ := blockComment_front found
    right
    left
    simp [List.getLast?_cons, ends]
  case h_16 c rest newline dashes star single n N e E x X double grave bracket mark =>
    obtain ⟨spelled, space, -⟩ := otherPiece_blank taken blank
    left
    simp [spelled, space]
  case h_15 =>
    cases taken
    cases blank
  all_goals
    obtain ⟨q, -, rfl⟩ := Option.map_eq_some_iff.mp taken
    cases blank

section Trailing

variable {core trail : List Char} {index : Nat} {gap : List Char}

/-- A comment to the end of the line ends where the text is cut off. -/
theorem cut_lineComment {p : Piece} {beyond : List Char} (taken : piece (core ++ trail) = some p)
    (blank : p.token = .blank) (split : p.source = core ++ beyond) (more : beyond ≠ [])
    (spaces : ∀ c ∈ beyond, Text.isBlank c) (some_core : core ≠ [])
    (ends : ∀ c ∈ core.getLast?, Text.isBlank c = false) :
    cut core = some [⟨.blank, core, []⟩] := by
  rcases blank_piece taken blank with all_spaces | closed | ⟨line, spelled, rest, commented⟩
  · have last := List.getLast?_eq_some_getLast some_core
    have bare := ends _ last
    rw [all_spaces _ (split ▸ List.mem_append_left _ (List.mem_of_getLast? last))] at bare
    cases bare
  · rw [split, List.getLast?_append_of_ne_nil _ more] at closed
    exact absurd (spaces _ (List.mem_of_getLast? closed)) (by decide)
  · rw [spelled] at split
    match core, some_core with
    | [c], _ =>
      simp only [List.singleton_append, List.cons.injEq] at split
      obtain ⟨-, rfl⟩ := split
      exact absurd (spaces '-' List.mem_cons_self) (by decide)
    | c :: d :: before, _ =>
      simp only [List.cons_append, List.cons.injEq] at split
      obtain ⟨rfl, rfl, split⟩ := split
      have again : piece ('-' :: '-' :: before) = some ⟨.blank, '-' :: '-' :: before, []⟩ := by
        rw [piece.eq_3, lineComment_of_append commented split more]
      rw [cut_of_piece again]
      rfl

/-- A piece ends before the white space at the end of a text, or it holds some of it. -/
theorem piece_reach {p : Piece} (taken : piece (core ++ trail) = some p) :
    (∃ left, core = p.source ++ left ∧ p.rest = left ++ trail) ∨
      ∃ beyond, beyond ≠ [] ∧ p.source = core ++ beyond ∧ trail = beyond ++ p.rest := by
  obtain ⟨split, -, -⟩ := piece_front taken
  rcases List.append_eq_append_iff.mp split with ⟨beyond, source_eq, trail_eq⟩ | inside
  · by_cases more : beyond = []
    · subst more
      exact .inl ⟨[], by simpa using source_eq.symm, by simpa using trail_eq.symm⟩
    · exact .inr ⟨beyond, more, source_eq, trail_eq⟩
  · exact .inl inside

/-- The same piece stands at the front of the text without its white space. -/
theorem cut_of_reach {p : Piece} {left : List Char}
    (taken : piece (p.source ++ left ++ trail) = some p) (rest_eq : p.rest = left ++ trail) :
    cut (p.source ++ left) = (cut left).map (⟨p.token, p.source, left⟩ :: ·) := by
  obtain ⟨-, -, front⟩ := piece_front taken
  exact cut_of_piece (front left (rest_eq ▸ List.prefix_append left trail))

/-- A token ends with white space if a piece in front of it, or its own, holds some of the white
space at the end of the text. -/
theorem ends_blank {p : Piece} {ps : List Piece} {beyond : List Char} {lexeme : Lexeme}
    (blank : ∀ c ∈ trail, Text.isBlank c) (others : cut p.rest = some ps) (more : beyond ≠ [])
    (source_eq : p.source = core ++ beyond) (trail_eq : trail = beyond ++ p.rest)
    (here : lexeme ∈ lexemesFrom index gap (p :: ps)) :
    ∃ c ∈ lexeme.source.toList.getLast?, Text.isBlank c := by
  obtain ⟨q, listed, -, spelled⟩ := of_mem_lexemesFrom here
  rw [spelled, String.toList_ofList]
  subst trail_eq
  rcases List.mem_cons.mp listed with rfl | later
  · have last := List.getLast?_eq_some_getLast more
    refine ⟨_, by rw [source_eq, List.getLast?_append_of_ne_nil _ more, last]; rfl, ?_⟩
    exact blank _ (List.mem_append_left _ (List.getLast_mem more))
  · obtain ⟨part, left, taken⟩ := of_mem_cut others q later
    obtain ⟨-, some_taken, -⟩ := piece_front taken
    have last := List.getLast?_eq_some_getLast some_taken
    exact ⟨_, last, blank _ (List.mem_append_right _ (part (List.getLast_mem some_taken)))⟩

/-- There are no tokens from such a piece on if the last one does not end with white space. -/
theorem lexemesFrom_eq_nil {p : Piece} {ps : List Piece} {beyond : List Char}
    (blank : ∀ c ∈ trail, Text.isBlank c) (others : cut p.rest = some ps) (more : beyond ≠ [])
    (source_eq : p.source = core ++ beyond) (trail_eq : trail = beyond ++ p.rest)
    (plain : ∀ lexeme ∈ (lexemesFrom index gap (p :: ps)).getLast?,
      ∀ c ∈ lexeme.source.toList.getLast?, Text.isBlank c = false) :
    lexemesFrom index gap (p :: ps) = [] := by
  by_contra some_left
  have last := List.getLast?_eq_some_getLast some_left
  obtain ⟨c, at_end, space⟩ :=
    ends_blank blank others more source_eq trail_eq (List.mem_of_getLast? last)
  rw [plain _ last c at_end] at space
  cases space

/-- White space at the end of a text makes no difference if no token ends with it. -/
theorem cut_append_blank {ps : List Piece} (pieced : cut (core ++ trail) = some ps)
    (blank : ∀ c ∈ trail, Text.isBlank c) (ends : ∀ c ∈ core.getLast?, Text.isBlank c = false)
    (plain : ∀ lexeme ∈ (lexemesFrom index gap ps).getLast?,
      ∀ c ∈ lexeme.source.toList.getLast?, Text.isBlank c = false) :
    ∃ qs, cut core = some qs ∧ lexemesFrom index gap qs = lexemesFrom index gap ps := by
  induction ps generalizing core index gap with
  | nil =>
    obtain ⟨rfl, -⟩ := List.append_eq_nil_iff.mp (cut_eq_nil pieced)
    exact ⟨[], rfl, rfl⟩
  | cons p rest ih =>
    obtain ⟨taken, others⟩ := cut_eq_cons pieced
    rcases piece_reach taken with ⟨left, rfl, rest_eq⟩ | ⟨beyond, more, source_eq, trail_eq⟩
    · -- the piece ends before the white space
      rw [rest_eq] at others
      have ends_left : ∀ c ∈ left.getLast?, Text.isBlank c = false := by
        intro c last
        apply ends
        rw [List.getLast?_append, last]
        rfl
      rw [cut_of_reach taken rest_eq]
      by_cases space : p.token = .blank
      · simp only [lexemesFrom, if_pos space] at plain ⊢
        obtain ⟨qs, pieced, same⟩ := ih others ends_left plain
        refine ⟨⟨p.token, p.source, left⟩ :: qs, by rw [pieced]; rfl, ?_⟩
        simp [lexemesFrom, space, same]
      · simp only [lexemesFrom, if_neg space] at plain ⊢
        have plain_rest : ∀ lexeme ∈ (lexemesFrom (index + 1) [] rest).getLast?,
            ∀ c ∈ lexeme.source.toList.getLast?, Text.isBlank c = false := by
          intro lexeme last
          apply plain
          rw [List.getLast?_cons, last]
          rfl
        obtain ⟨qs, pieced, same⟩ := ih others ends_left plain_rest
        refine ⟨⟨p.token, p.source, left⟩ :: qs, by rw [pieced]; rfl, ?_⟩
        simp [lexemesFrom, space, same]
    · -- the piece holds some of the white space, so it and all after it are no tokens
      have none_left := lexemesFrom_eq_nil blank others more source_eq trail_eq plain
      have space : p.token = .blank := by
        by_contra token
        rw [lexemesFrom, if_neg token] at none_left
        cases none_left
      rw [none_left]
      by_cases some_core : core = []
      · subst some_core
        exact ⟨[], rfl, rfl⟩
      · refine ⟨_, cut_lineComment taken space source_eq more
          (fun c here => blank c (trail_eq ▸ List.mem_append_left _ here)) some_core ends, ?_⟩
        rfl

end Trailing

end Lexer

/-! ### Trimmed texts -/

/-- Neither the first nor the last token has white space at its outer end. -/
structure PlainEnds (lexemes : List Lexeme) : Prop where
  first : ∀ lexeme ∈ lexemes.head?, ∀ c ∈ lexeme.source.toList.head?, Text.isBlank c = false
  last : ∀ lexeme ∈ lexemes.getLast?, ∀ c ∈ lexeme.source.toList.getLast?, Text.isBlank c = false

instance (lexemes : List Lexeme) : Decidable (PlainEnds lexemes) :=
  decidable_of_iff
    (lexemes.head?.all (fun lexeme => lexeme.source.toList.head?.all (!Text.isBlank ·)) ∧
      lexemes.getLast?.all fun lexeme => lexeme.source.toList.getLast?.all (!Text.isBlank ·)) <| by
    simp only [Option.all_eq_true, Bool.not_eq_true']
    exact ⟨fun h => ⟨h.1, h.2⟩, fun h => ⟨h.first, h.last⟩⟩

/-- Blanks are dropped at the front and at the back. -/
theorem trimChars_eq (chars : List Char) :
    Text.trimChars chars = (chars.dropWhile Text.isBlank).rdropWhile Text.isBlank := rfl

/-- The white space that is trimmed off the end, and the end of what is left. -/
theorem trimChars_append (chars : List Char) :
    ∃ trail, chars.dropWhile Text.isBlank = Text.trimChars chars ++ trail ∧
      (∀ c ∈ trail, Text.isBlank c) ∧
      ∀ c ∈ (Text.trimChars chars).getLast?, Text.isBlank c = false := by
  refine ⟨(chars.dropWhile Text.isBlank).rtakeWhile Text.isBlank, ?_, ?_, ?_⟩
  · rw [trimChars_eq, List.rdropWhile_append_rtakeWhile]
  · intro c here
    exact List.mem_rtakeWhile_imp here
  · intro c last
    have some_left : Text.trimChars chars ≠ [] := List.ne_nil_of_mem (List.mem_of_getLast? last)
    rw [List.getLast?_eq_some_getLast some_left] at last
    cases last
    have bare := List.rdropWhile_last_not Text.isBlank (chars.dropWhile Text.isBlank) some_left
    rw [Bool.not_eq_true] at bare
    exact bare

/-- Nothing is trimmed off a text without white space at its ends. -/
theorem trimChars_of_bare {chars : List Char} (front : ∀ c ∈ chars.head?, Text.isBlank c = false)
    (back : ∀ c ∈ chars.getLast?, Text.isBlank c = false) : Text.trimChars chars = chars := by
  have dropped : chars.dropWhile Text.isBlank = chars := by
    cases chars with
    | nil => rfl
    | cons c rest => exact List.dropWhile_cons_of_neg (by simpa using front c rfl)
  rw [trimChars_eq, dropped, List.rdropWhile_eq_self_iff]
  intro some_left
  simpa using back _ (List.getLast?_eq_some_getLast some_left)

/-- A trimmed text has nothing left to trim. -/
theorem trimChars_trimChars (chars : List Char) :
    Text.trimChars (Text.trimChars chars) = Text.trimChars chars := by
  have front : (Text.trimChars chars).dropWhile Text.isBlank = Text.trimChars chars := by
    obtain ⟨trail, split, -, -⟩ := trimChars_append chars
    cases kept : Text.trimChars chars with
    | nil => rfl
    | cons c rest =>
      have bare := List.head?_dropWhile_not Text.isBlank chars
      rw [split, kept] at bare
      exact List.dropWhile_cons_of_neg (by simpa using bare)
  rw [trimChars_eq (Text.trimChars chars), front, trimChars_eq, List.rdropWhile_idempotent]

theorem trim_trim (text : String) : Text.trim (Text.trim text) = Text.trim text := by
  rw [Text.trim, Text.trim, String.toList_ofList, trimChars_trimChars]

/-- The tokens of a trimmed text are those of the text, if none of them loses white space. -/
theorem Lexer.lex_trim {text : String} {lexemes : List Lexeme} (lexed : lex text = some lexemes)
    (plain : PlainEnds lexemes) : lex (Text.trim text) = some lexemes := by
  rw [lex_eq] at lexed ⊢
  obtain ⟨trail, split, blank, ends⟩ := trimChars_append text.toList
  have without := lexemes_dropWhile lexed plain.first
  rw [split] at without
  obtain ⟨ps, pieced, rfl⟩ := Option.map_eq_some_iff.mp without
  obtain ⟨qs, again, same⟩ := cut_append_blank pieced blank ends plain.last
  rw [Text.trim, String.toList_ofList, again, Option.map_some, same]

/-- A text is read the same after it is trimmed if its tokens are. -/
theorem parse_trim {text : String} {lexemes : List Lexeme}
    (lexed : Lexer.lex text = some lexemes) (plain : PlainEnds lexemes) (dialect : Dialect) :
    parse dialect (Text.trim text) = parse dialect text := by
  rw [parse, parse, Lexer.lex_trim lexed plain, lexed]

namespace ReadQuery

theorem lexed_of_ofText {text : String} {query : ReadQuery} (accepted : ofText text = .ok query) :
    Lexer.lex text = some (tokens text) := by
  obtain ⟨statement, parsed, -⟩ := ofText_eq_ok accepted
  exact (parse_eq_ok parsed).1

/-- **The stored text of an accepted query.** It is the text without white space at its ends, and
trimming it again changes nothing. If the text has no white space at the outer ends of its first and
its last token, both texts have the same tokens, so they are read the same by the check and by the
database. Then the stored text is accepted again, as the same query with the same placeholders. -/
theorem ofText_trim (text : String) (query : ReadQuery) (accepted : ofText text = .ok query) :
    query.sql = Text.trim text ∧ Text.trim query.sql = query.sql ∧
      (PlainEnds (tokens text) →
        tokens query.sql = tokens text ∧
        (∀ dialect, parse dialect query.sql = parse dialect text) ∧
        ofText query.sql = .ok query) := by
  obtain ⟨statement, parsed, select, named, rfl⟩ := ofText_eq_ok accepted
  have lexed := lexed_of_ofText accepted
  refine ⟨rfl, trim_trim text, fun plain => ⟨?_, parse_trim lexed plain, ?_⟩⟩
  · rw [tokens, Lexer.lex_trim lexed plain]
    rfl
  · have unmarked : statement.placeholders.any isPositional = false := by simpa using named
    simp only [ofText, parse_trim lexed plain, parsed, ofStatements_select select, unmarked,
      trim_trim]
    rfl

theorem ofText_trim_spaced :
    let text := " \n SELECT filesize FROM Files WHERE filesize > :min -- of all files \u00a0"
    let query : ReadQuery :=
      ⟨"SELECT filesize FROM Files WHERE filesize > :min -- of all files", [":min"]⟩
    ofText text = .ok query ∧ PlainEnds (tokens text) ∧ ofText query.sql = .ok query := by
  intro text query
  have accepted : ofText text = .ok query := by decide +kernel
  have plain : PlainEnds (tokens text) := by decide +kernel
  obtain ⟨-, -, kept⟩ := ofText_trim text query accepted
  exact ⟨accepted, plain, (kept plain).2.2⟩

/-- A space that does not break is a part of names for the check, but not in the stored text: the
query wants a value for a placeholder that is not in it, and where the space was a name alone,
there is no query left. -/
theorem trimmed_placeholder :
    let text := "SELECT filesize FROM Files WHERE filesize > :min\u00a0"
    let stored := "SELECT filesize FROM Files WHERE filesize > :min"
    ofText text = .ok ⟨stored, [":min\u00a0"]⟩ ∧ ofText stored = .ok ⟨stored, [":min"]⟩ ∧
      ofText "SELECT 1 FROM \u00a0" = .ok ⟨"SELECT 1 FROM", []⟩ ∧
      ofText "SELECT 1 FROM" = .error (.unparsable "SELECT 1 FROM") := by
  decide +kernel

end ReadQuery

end GridReport.Sql
