import GridReport.Proofs.TrimmedTexts

/-!
Tokens that stand in the text as they are.

An unquoted word and a symbol are spelled as what they stand for. A token that a query starts with
is spelled without white space, so nothing is trimmed off it.

* `piece_spelling` — an unquoted word and a symbol are the text that they stand for.
* `bare_of_opensQuery` — what starts a query has no white space in it.
-/

namespace GridReport.Sql

/-! ### Spelled tokens -/

/-- The text of an unquoted word or of a symbol. -/
def Token.spelling? : Token → Option String
  | .word ⟨value, none⟩ => some value
  | .symbol spelling => some spelling
  | _ => none

namespace Lexer

variable {chars : List Char} {p : Piece} {spelling : String}

/-- A number is written as its token spells it. -/
theorem number_spelling (taken : number chars = some p)
    (spelled : p.token.spelling? = some spelling) : p.source = spelling.toList := by
  by_cases hex : ∃ rest, chars = '0' :: 'x' :: rest
  · obtain ⟨rest, rfl⟩ := hex
    rw [number_hex] at taken
    cases taken
    cases spelled
  · rw [number_eq fun rest same => hex ⟨rest, same⟩] at taken
    split at taken
    · cases taken
      cases spelled
      rfl
    · simp only [numbered.eq_def] at taken
      split at taken <;> cases taken <;> cases spelled

/-- So is a symbol. -/
theorem symbol_spelling (taken : symbol chars = some p)
    (spelled : p.token.spelling? = some spelling) : p.source = spelling.toList := by
  rw [symbol.eq_def] at taken
  split at taken
  · cases taken
    cases spelled
    rw [String.toList_ofList]
  · cases taken
    cases spelled
    simp
  · cases taken

/-- So is every other piece whose token has a spelling. -/
theorem otherPiece_spelling {c : Char} {rest : List Char} (taken : otherPiece c rest = some p)
    (spelled : p.token.spelling? = some spelling) : p.source = spelling.toList := by
  rw [otherPiece] at taken
  split at taken
  · cases taken
    cases spelled
  split at taken
  · cases taken
    cases spelled
    rw [String.toList_ofList]
  split at taken
  · exact number_spelling taken spelled
  split at taken
  · cases taken
    cases spelled
  · exact symbol_spelling taken spelled

/-- An unquoted word or a symbol stands in the text as it is. -/
theorem piece_spelling (taken : piece chars = some p)
    (spelled : p.token.spelling? = some spelling) : p.source = spelling.toList := by
  rw [piece.eq_def] at taken
  split at taken
  case h_1 => cases taken
  case h_16 => exact otherPiece_spelling taken spelled
  case h_4 rest =>
    obtain ⟨⟨source, after⟩, -, rfl⟩ := Option.map_eq_some_iff.mp taken
    cases spelled
  case h_2 | h_3 | h_15 =>
    cases taken
    cases spelled
  all_goals
    obtain ⟨q, -, rfl⟩ := Option.map_eq_some_iff.mp taken
    cases spelled

end Lexer

/-! ### White space in words -/

/-- The code points of white space. -/
def blankCodes : List Nat :=
  Text.blankRanges.flatMap fun range => List.range' range.1 (range.2 + 1 - range.1)

theorem mem_blankCodes {c : Char} (blank : Text.isBlank c) : c.toNat ∈ blankCodes := by
  obtain ⟨range, listed, inside⟩ := List.any_eq_true.mp blank
  simp only [Bool.and_eq_true, decide_eq_true_eq] at inside
  refine List.mem_flatMap.mpr ⟨range, listed, List.mem_range'_1.mpr ?_⟩
  omega

/-- White space is its own upper case. -/
theorem upperChar_of_blank {c : Char} (blank : Text.isBlank c) : Text.upperChar c = [c] := by
  have own : ∀ code ∈ blankCodes, Text.upperChar (Char.ofNat code) = [Char.ofNat code] := by
    decide +kernel
  simpa using own _ (mem_blankCodes blank)

/-- Only an unquoted word is read as a keyword. -/
theorem Token.eq_word_of_keyword {token : Token} (named : token.keyword ≠ "") :
    ∃ value, token = .word ⟨value, none⟩ := by
  unfold keyword at named
  split at named
  · exact ⟨_, rfl⟩
  · exact absurd rfl named

/-- The token is spelled as it is, and without white space. -/
def Token.Bare (token : Token) : Prop :=
  ∃ spelling, token.spelling? = some spelling ∧ ∀ c ∈ spelling.toList, Text.isBlank c = false

/-- What opens a query is written without quotes. -/
theorem bare_of_opensQuery {token : Token} (opens : Parse.opensQuery token) : token.Bare := by
  rw [Parse.opensQuery, Bool.or_eq_true, List.contains_iff_mem, beq_iff_eq] at opens
  rcases opens with word | rfl
  · have plain : ∀ keyword ∈ ["SELECT", "WITH", "VALUES"],
        keyword ≠ "" ∧ keyword.toList.all (!Text.isBlank ·) := by decide
    obtain ⟨named, bare⟩ := plain _ word
    obtain ⟨value, rfl⟩ := Token.eq_word_of_keyword named
    refine ⟨value, rfl, fun c here => ?_⟩
    by_contra blank
    rw [Bool.not_eq_false] at blank
    have kept : c ∈ (Text.upper value).toList := by
      rw [Text.upper, String.toList_ofList]
      exact List.mem_flatMap.mpr ⟨c, here, by simp [upperChar_of_blank blank]⟩
    have unspaced := List.all_eq_true.mp bare c kept
    rw [blank] at unspaced
    cases unspaced
  · exact ⟨"(", rfl, by simp [Text.isBlank, Text.blankRanges]⟩

end GridReport.Sql
