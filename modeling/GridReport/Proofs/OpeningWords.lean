import GridReport.Proofs.SpelledTokens
import GridReport.Store.Marks

/-!
The word that an accepted text opens with for the database.

The check and the database do not agree about comments: for the check they nest. So what the check
takes for a comment may hold a statement for the database. If no comment in front of the first
statement holds the opening of another one, both find the first statement at the same place, and its
first word is one that a query starts with.

* `plainFront` — no comment in front of the first statement opens another one.
* `gaps_of_cut` — what the check passes over are gaps.
* `openingFrom_gaps` — the database passes over gaps, too.
* `openingWord_of_accepted` — an accepted text does not open like a change.
-/

namespace GridReport

namespace Sql

namespace Lexer

/-! ### What stands in front -/

theorem dropWhile_append_of_stop {test : Char → Bool} {front rest : List Char}
    (stops : ∀ c ∈ rest.head?, test c = false) :
    (front ++ rest).dropWhile test = front.dropWhile test ++ rest := by
  have stopped : rest.dropWhile test = rest := by
    cases rest with
    | nil => rfl
    | cons c rest => exact List.dropWhile_cons_of_neg (by simpa using stops c rfl)
  rw [List.dropWhile_append]
  split
  · rename_i none_left
    rw [stopped, List.isEmpty_iff.mp none_left, List.nil_append]
  · rfl

/-- There is the opening of a comment. -/
def opensComment : List Char → Bool
  | [] => false
  | '/' :: '*' :: _ => true
  | _ :: rest => opensComment rest

/-- The piece is a comment that holds the opening of another one. -/
def Piece.nests (p : Piece) : Bool :=
  match p.source with
  | '/' :: '*' :: body => opensComment body
  | _ => false

/-- The piece may stand in front of the first statement. -/
def Piece.isFront (p : Piece) : Bool := p.token == .blank || p.token == .symbol ";"

/-- What may stand in front of a statement, for the check and for the database. -/
inductive Gap : List Char → Prop where
  | space {c : Char} : Text.isBlank c → startsName c = false → Gap [c]
  | semicolon : Gap [';']
  | line {line : List Char} : '\n' ∉ line → Gap ('-' :: '-' :: line ++ ['\n'])
  | comment {body : List Char} : blockComment 0 ' ' body = some (body, []) →
    opensComment body = false → Gap ('/' :: '*' :: body)

/-- One gap after another. -/
inductive Gaps : List Char → Prop where
  | nil : Gaps []
  | cons {gap more : List Char} : Gap gap → Gaps more → Gaps (gap ++ more)

theorem Gap.gaps {gap : List Char} (one : Gap gap) : Gaps gap := by
  simpa using Gaps.cons one .nil

/-- Gaps can follow each other. -/
theorem Gaps.append {front more : List Char} (these : Gaps front) (those : Gaps more) :
    Gaps (front ++ more) := by
  induction these with
  | nil => exact those
  | cons gap _ ih =>
    rw [List.append_assoc]
    exact .cons gap ih

/-- A blank piece with something after it is a gap, if it opens no comment in a comment. -/
theorem gaps_of_blank {chars : List Char} {p : Piece} (taken : piece chars = some p)
    (blank : p.token = .blank) (more : p.rest ≠ []) (flat : p.nests = false) : Gaps p.source := by
  rw [piece.eq_def] at taken
  split at taken
  case h_1 => cases taken
  case h_2 =>
    cases taken
    exact .cons (.space rfl rfl) (Gap.space rfl rfl).gaps
  case h_3 rest =>
    rw [lineComment.eq_def] at taken
    cases after : rest.dropWhile (· != '\n') with
    | nil =>
      simp only [after] at taken
      cases taken
      exact absurd rfl more
    | cons newline tail =>
      obtain rfl : newline = '\n' := by
        have stopped := List.head?_dropWhile_not (· != '\n') rest
        simpa [after] using stopped
      simp only [after] at taken
      cases taken
      refine (Gap.line fun inside => ?_).gaps
      have passed := List.mem_takeWhile_imp (p := (· != '\n')) inside
      cases passed
  case h_4 rest =>
    obtain ⟨⟨source, after⟩, found, rfl⟩ := Option.map_eq_some_iff.mp taken
    exact (Gap.comment (by simpa using (blockComment_front found).2.2 []) flat).gaps
  case h_16 c rest _ _ _ _ _ _ _ _ _ _ _ _ _ _ =>
    obtain ⟨spelled, space, plain⟩ := otherPiece_blank taken blank
    rw [spelled]
    exact (Gap.space space plain).gaps
  case h_15 =>
    cases taken
    cases blank
  all_goals
    obtain ⟨q, -, rfl⟩ := Option.map_eq_some_iff.mp taken
    cases blank

/-- In front of the first token of a query there are gaps. -/
theorem gaps_of_cut {chars gap : List Char} {ps : List Piece} {index : Nat}
    (pieced : cut chars = some ps)
    (starts : Parse.startsQuery (Parse.afterSemicolons (lexemesFrom index gap ps)))
    (flat : ∀ p ∈ ps.takeWhile Piece.isFront, p.nests = false) :
    ∃ front left p, chars = front ++ left ∧ Gaps front ∧ piece left = some p ∧
      Parse.opensQuery p.token := by
  induction ps generalizing chars index gap with
  | nil => cases starts
  | cons p ps ih =>
    obtain ⟨taken, pieced⟩ := cut_eq_cons pieced
    obtain ⟨split, -, -⟩ := piece_front taken
    have passed {index : Nat} {gap : List Char} (own : p.isFront) (these : Gaps p.source)
        (starts : Parse.startsQuery (Parse.afterSemicolons (lexemesFrom index gap ps))) :
        ∃ front left p, chars = front ++ left ∧ Gaps front ∧ piece left = some p ∧
          Parse.opensQuery p.token := by
      rw [List.takeWhile_cons, if_pos own, List.forall_mem_cons] at flat
      obtain ⟨front, left, first, split', those, taken, opens⟩ := ih pieced starts flat.2
      refine ⟨p.source ++ front, left, first, ?_, these.append those, taken, opens⟩
      rw [split, split', List.append_assoc]
    rw [lexemesFrom] at starts
    split at starts
    · rename_i blank
      have own : p.isFront := by simp [Piece.isFront, blank]
      refine passed own (gaps_of_blank taken blank ?_ (flat p ?_)) starts
      · intro none_left
        rw [none_left] at pieced
        cases pieced
        cases starts
      · rw [List.takeWhile_cons, if_pos own]
        exact List.mem_cons_self
    · by_cases separator : p.token = .symbol ";"
      · have spelled : p.source = [';'] := by
          rw [piece_spelling taken (separator ▸ rfl : p.token.spelling? = some ";")]
          rfl
        rw [Parse.afterSemicolons, List.dropWhile_cons, if_pos (by simp [separator])] at starts
        exact passed (by simp [Piece.isFront, separator]) (spelled ▸ Gap.semicolon.gaps) starts
      · rw [Parse.afterSemicolons, List.dropWhile_cons, if_neg (by simpa using separator)] at starts
        exact ⟨[], chars, p, rfl, .nil, taken, starts⟩

/-- Gaps without the white space in front are gaps. -/
theorem Gaps.dropWhile {front : List Char} (gaps : Gaps front) {test : Char → Bool}
    (semicolon : test ';' = false) (dash : test '-' = false) (slash : test '/' = false) :
    Gaps (front.dropWhile test) := by
  induction gaps with
  | nil => exact .nil
  | cons gap more ih =>
    have whole := Gaps.cons gap more
    cases gap with
    | space blank plain =>
      rw [List.singleton_append, List.dropWhile_cons] at *
      split
      · exact ih
      · exact whole
    | semicolon => rwa [List.singleton_append, List.dropWhile_cons_of_neg (by simp [semicolon])]
    | line => rwa [List.cons_append, List.cons_append, List.dropWhile_cons_of_neg (by simp [dash])]
    | comment => rwa [List.cons_append, List.dropWhile_cons_of_neg (by simp [slash])]

/-- Gaps are still gaps in front of what is not white space, after the text is trimmed. -/
theorem trimChars_gaps {front core : List Char} (gaps : Gaps front) (some_core : core ≠ [])
    (bare : ∀ c ∈ core, Text.isBlank c = false) (rest : List Char) :
    ∃ left more, Text.trimChars (front ++ (core ++ rest)) = left ++ (core ++ more) ∧ Gaps left := by
  obtain ⟨trail, split, blank, -⟩ := trimChars_append (front ++ (core ++ rest))
  have stops : ∀ c ∈ (core ++ rest).head?, Text.isBlank c = false := by
    intro c at_front
    rw [List.head?_append_of_ne_nil _ some_core] at at_front
    exact bare c (List.mem_of_head? at_front)
  rw [dropWhile_append_of_stop stops, ← List.append_assoc] at split
  have left_gaps : Gaps (front.dropWhile Text.isBlank) := gaps.dropWhile rfl rfl rfl
  rcases List.append_eq_append_iff.mp split with ⟨beyond, kept, -⟩ | ⟨beyond, cut, spaces⟩
  · exact ⟨_, beyond, by rw [kept, List.append_assoc], left_gaps⟩
  · -- the end of the core is not white space, so nothing of it is trimmed off
    obtain rfl : beyond = [] := by
      by_contra some_beyond
      have last :=
        List.getLast?_append_of_ne_nil (Text.trimChars (front ++ (core ++ rest))) some_beyond
      rw [← cut, List.getLast?_append_of_ne_nil _ some_core] at last
      have at_end := List.getLast?_eq_some_getLast some_core
      have space := blank _ (spaces ▸ List.mem_append_left _ (List.mem_of_getLast? (last ▸ at_end)))
      rw [bare _ (List.mem_of_getLast? at_end)] at space
      cases space
    rw [List.append_nil] at cut
    exact ⟨_, [], by rw [← cut, List.append_nil], left_gaps⟩

end Lexer

/-- No comment in front of the first statement opens another one. -/
def plainFront (text : String) : Bool :=
  (((Lexer.pieces text).getD []).takeWhile Lexer.Piece.isFront).all (!·.nests)

end Sql

namespace Store.Marks

/-! ### What the database passes over -/

/-- What the database sees of a text. -/
def shown (chars : List Char) : List Char := chars.takeWhile (· != '\x00')

theorem shown_append {front : List Char} (plain : '\x00' ∉ front) (rest : List Char) :
    shown (front ++ rest) = front ++ shown rest :=
  List.takeWhile_append_of_pos fun _ here => bne_iff_ne.mpr fun same => plain (same ▸ here)

@[simp] theorem shown_cons (c : Char) (rest : List Char) :
    shown (c :: rest) = if c = '\x00' then [] else c :: shown rest := by
  simp [shown, List.takeWhile_cons]

/-- What is seen after a part of the text. -/
theorem drop_shown (front rest : List Char) :
    (shown (front ++ rest)).drop front.length = if '\x00' ∈ front then [] else shown rest := by
  induction front with
  | nil => simp
  | cons c front ih =>
    rw [List.cons_append, shown_cons]
    by_cases cut : c = '\x00'
    · simp [cut]
    · rw [if_neg cut, List.length_cons, List.drop_succ_cons, ih]
      simp [Ne.symm cut]

/-- A comment goes on until its end. -/
theorem commentSize_cons {c d : Char} {rest : List Char} (on : ¬(c = '*' ∧ d = '/')) :
    commentSize (c :: d :: rest) = commentSize (d :: rest) + 1 :=
  commentSize.eq_3 c (d :: rest) fun _ star slash =>
    on ⟨star, (List.cons.inj slash).1⟩

/-- A comment that opens no other one ends for the database where it ends for the check, or where
the text does. -/
theorem commentSize_shown {last : Char} {chars body after : List Char}
    (taken : Sql.Lexer.blockComment 0 last chars = some (body, after)) (rest : List Char)
    (flat : Sql.Lexer.opensComment (last :: body) = false) :
    commentSize (last :: shown (body ++ rest)) =
      min body.length (shown (body ++ rest)).length + 1 := by
  induction chars generalizing last body with
  | nil => cases taken
  | cons c chars ih =>
    rw [Sql.Lexer.blockComment.eq_def] at taken
    dsimp only at taken
    split at taken
    · rename_i opens
      obtain ⟨_, -, same⟩ := Option.map_eq_some_iff.mp taken
      cases same
      simp only [Bool.and_eq_true, decide_eq_true_eq] at opens
      obtain ⟨rfl, rfl⟩ := opens
      cases flat
    split at taken
    · rename_i closes
      cases taken
      simp only [Bool.and_eq_true, decide_eq_true_eq] at closes
      obtain ⟨rfl, rfl⟩ := closes
      simp [commentSize]
    · rename_i closes
      obtain ⟨⟨tail, _⟩, found, same⟩ := Option.map_eq_some_iff.mp taken
      cases same
      have flat_tail : Sql.Lexer.opensComment (c :: tail) = false := by
        rw [Sql.Lexer.opensComment.eq_def] at flat
        split at flat <;> simp_all
      rw [List.cons_append, shown_cons]
      split
      · simp [commentSize]
      · rw [commentSize_cons (by simpa using closes), ih found flat_tail]
        simp

/-- The word that the pieces open with. -/
def openingFrom (offset : Nat) (chars : List Char) (fuel : Nat) : String :=
  (((piecesFrom offset chars fuel).dropWhile Piece.isFront).head?.map Piece.keyword).getD ""

theorem openingFrom_nil {offset fuel : Nat} : openingFrom offset [] fuel = "" := by
  simp [openingFrom, piecesFrom]

theorem openingFrom_zero {offset : Nat} {chars : List Char} : openingFrom offset chars 0 = "" := by
  cases chars <;> rfl

section Pieces

variable {c : Char} {rest : List Char} {mark : Mark} {size offset fuel : Nat}

/-- What stands in front of a statement is passed over. -/
theorem openingFrom_front {left : List Char} (taken : piece (c :: rest) = (mark, size))
    (front : mark = .blank ∨ mark = .semicolon) (after : (c :: rest).drop size = left) :
    ∃ later, openingFrom offset (c :: rest) (fuel + 1) = openingFrom later left fuel := by
  refine ⟨offset + Text.width ((c :: rest).take size), ?_⟩
  simp only [openingFrom, piecesFrom, taken, after]
  rw [List.dropWhile_cons_of_pos]
  rcases front with rfl | rfl <;> rfl

/-- The first word is read in capitals. -/
theorem openingFrom_word (taken : piece (c :: rest) = (.word, size)) :
    openingFrom offset (c :: rest) (fuel + 1) =
      (String.ofList ((c :: rest).take size)).map Char.toUpper := by
  simp only [openingFrom, piecesFrom, taken]
  rfl

/-- A piece that is no word opens nothing. -/
theorem openingFrom_plain (taken : piece (c :: rest) = (mark, size))
    (plain : mark = .plain ∨ mark = .unknown) :
    openingFrom offset (c :: rest) (fuel + 1) = "" := by
  simp only [openingFrom, piecesFrom, taken]
  rcases plain with rfl | rfl <;> rfl

theorem drop_run (test : Char → Bool) (chars : List Char) :
    chars.drop (run test chars) = chars.dropWhile test := by
  have split := List.takeWhile_append_dropWhile (p := test) (l := chars)
  rw [run]
  nth_rewrite 2 [← split]
  exact List.drop_left

theorem piece_line (rest : List Char) :
    piece ('-' :: '-' :: rest) = (.blank, 2 + run (· != '\n') rest) := rfl

theorem piece_comment (c : Char) (rest : List Char) :
    piece ('/' :: '*' :: c :: rest) = (.blank, 2 + commentSize (c :: rest)) := rfl

theorem piece_of_space (space : isSpace c) :
    piece (c :: rest) = (.blank, 1 + run continuesSpace rest) := by
  simp only [isSpace, Bool.or_eq_true, beq_iff_eq] at space
  rcases space with (((rfl | rfl) | rfl) | rfl) | rfl <;> rfl

/-- The first of gaps that is white space is white space for the database, too, or unknown to it. -/
theorem space_of_gap (blank : Text.isBlank c) (plain : Sql.Lexer.startsName c = false) :
    isSpace c ∨ c = '\x0b' := by
  have code : c.toNat ∈ [9, 10, 11, 12, 13, 32] := by
    simp only [Text.isBlank, Text.blankRanges, List.any_cons, List.any_nil, Bool.or_eq_true,
      Bool.and_eq_true, decide_eq_true_eq, Bool.or_false] at blank
    simp only [Sql.Lexer.startsName, Bool.or_eq_false_iff, Bool.and_eq_false_iff,
      decide_eq_false_iff_not] at plain
    simp only [List.mem_cons, List.not_mem_nil, or_false]
    omega
  have spaces : ∀ code ∈ [9, 10, 11, 12, 13, 32],
      isSpace (Char.ofNat code) ∨ Char.ofNat code = '\x0b' := by decide
  simpa using spaces _ code

end Pieces

/-- What follows a part of the text of which the database sees so much. -/
theorem drop_seen {front rest : List Char} :
    (shown (front ++ rest)).drop (min front.length (shown (front ++ rest)).length) =
      if '\x00' ∈ front then [] else shown rest := by
  rw [← drop_shown]
  rcases le_total front.length (shown (front ++ rest)).length with le | le
  · rw [min_eq_left le]
  · rw [min_eq_right le, List.drop_length, List.drop_eq_nil_of_le le]

/-- A line comment is passed over up to its break, if the text is not cut off before. -/
theorem run_line {line rest : List Char} (unbroken : '\n' ∉ line) :
    run (· != '\n') (shown (line ++ '\n' :: rest)) =
      min line.length (shown (line ++ '\n' :: rest)).length := by
  induction line with
  | nil => simp [run]
  | cons c line ih =>
    simp only [List.mem_cons, not_or] at unbroken
    rw [List.cons_append, shown_cons]
    split
    · simp [run]
    · have passes : (c != '\n') = true := bne_iff_ne.mpr (Ne.symm unbroken.1)
      rw [run, List.takeWhile_cons, if_pos passes, List.length_cons, ← run, ih unbroken.2]
      simp

/-- White space is dropped alike from a text and from what the database sees of it. -/
theorem dropWhile_shown (chars : List Char) :
    (shown chars).dropWhile continuesSpace = shown (chars.dropWhile continuesSpace) := by
  induction chars with
  | nil => rfl
  | cons c rest ih =>
    rw [shown_cons, List.dropWhile_cons]
    by_cases cut : c = '\x00'
    · subst cut
      rfl
    · rw [if_neg cut, List.dropWhile_cons]
      split
      · exact ih
      · rw [shown_cons, if_neg cut]

/-- A zero character in what is passed over ends the text for the database. -/
theorem openingFrom_cut {chars : List Char} {offset fuel : Nat} (front left : List Char)
    (later : ∃ later, openingFrom offset chars (fuel + 1) =
      openingFrom later (if '\x00' ∈ front then [] else shown left) fuel) :
    openingFrom offset chars (fuel + 1) = "" ∨
      ∃ later, openingFrom offset chars (fuel + 1) = openingFrom later (shown left) fuel := by
  obtain ⟨later, same⟩ := later
  split at same
  · exact .inl (same.trans openingFrom_nil)
  · exact .inr ⟨later, same⟩

/-- The database passes over a gap, unless it sees no end of it. -/
theorem openingFrom_gap {gap : List Char} (one : Sql.Lexer.Gap gap) (rest : List Char)
    (offset fuel : Nat) :
    openingFrom offset (shown (gap ++ rest)) (fuel + 1) = "" ∨
      ∃ left ∈ [rest, rest.dropWhile continuesSpace, '\n' :: rest], ∃ later,
        openingFrom offset (shown (gap ++ rest)) (fuel + 1) =
          openingFrom later (shown left) fuel := by
  cases one with
  | @space c blank plain =>
    rcases space_of_gap blank plain with space | rfl
    · have seen : c ≠ '\x00' := by
        rintro rfl
        cases blank
      refine .inr ⟨rest.dropWhile continuesSpace, by simp, ?_⟩
      rw [List.singleton_append, shown_cons, if_neg seen]
      refine openingFrom_front (piece_of_space space) (.inl rfl) ?_
      rw [Nat.add_comm, List.drop_succ_cons, drop_run, dropWhile_shown]
    · left
      rw [List.singleton_append, shown_cons, if_neg (by decide)]
      exact openingFrom_plain (show piece _ = (.unknown, 1) from rfl) (.inr rfl)
  | semicolon =>
    rw [List.singleton_append, shown_cons, if_neg (by decide)]
    exact .inr ⟨rest, by simp, openingFrom_front rfl (.inr rfl) rfl⟩
  | @line line unbroken =>
    simp only [List.cons_append, List.append_assoc, List.nil_append, shown_cons]
    rw [if_neg (by decide), if_neg (by decide)]
    refine (openingFrom_cut line ('\n' :: rest) ?_).imp_right fun later => ⟨_, by simp, later⟩
    refine openingFrom_front (piece_line _) (.inl rfl) ?_
    rw [run_line unbroken, Nat.add_comm, List.drop_succ_cons, List.drop_succ_cons, drop_seen]
  | @comment body taken flat =>
    simp only [List.cons_append, shown_cons]
    rw [if_neg (by decide), if_neg (by decide)]
    cases seen : shown (body ++ rest) with
    | nil => exact .inl (openingFrom_plain (show piece _ = (.plain, 1) from rfl) (.inl rfl))
    | cons c others =>
      have size := commentSize_shown taken rest flat
      rw [commentSize.eq_3 _ _ fun _ star _ => by simp at star] at size
      refine (openingFrom_cut body rest ?_).imp_right fun later => ⟨_, by simp, later⟩
      refine openingFrom_front (piece_comment _ _) (.inl rfl) ?_
      rw [← seen, Nat.succ.inj size, Nat.add_comm, List.drop_succ_cons, List.drop_succ_cons,
        drop_seen]

/-- **The database passes over gaps.** Or it sees no end of one of them, and finds no word. -/
theorem openingFrom_gaps (holds : String → Prop) (none : holds "") {front rest : List Char}
    (gaps : Sql.Lexer.Gaps front) (stops : ∀ c ∈ rest.head?, continuesSpace c = false)
    (there : ∀ offset fuel, holds (openingFrom offset (shown rest) fuel)) (offset fuel : Nat) :
    holds (openingFrom offset (shown (front ++ rest)) fuel) := by
  induction fuel generalizing front offset with
  | zero =>
    rw [openingFrom_zero]
    exact none
  | succ fuel ih =>
    cases gaps with
    | nil => exact there offset _
    | @cons gap more one others =>
      rw [List.append_assoc]
      rcases openingFrom_gap one (more ++ rest) offset fuel with same | ⟨left, among, later, same⟩
      · rw [same]
        exact none
      · rw [same]
        simp only [List.mem_cons, List.not_mem_nil, or_false] at among
        rcases among with rfl | rfl | rfl
        · exact ih others later
        · rw [Sql.Lexer.dropWhile_append_of_stop stops]
          exact ih (others.dropWhile rfl rfl rfl) later
        · exact ih (.cons (.space rfl rfl) others) later

/-! ### The first word -/

section Letters

variable {c : Char} {rest : List Char}

/-- The upper case of the letter is made of capitals. -/
def isCapitalized (c : Char) : Bool := (Text.upperChar c).all Char.isUpper

theorem inName_of_capitalized (capitalized : isCapitalized c) : inName c := by
  by_cases ascii : c.toNat < 128
  · have letters : ∀ code < 128, isCapitalized (Char.ofNat code) → inName (Char.ofNat code) := by
      decide +kernel
    simpa [capitalized] using letters c.toNat ascii
  · simp [inName, not_lt.mp ascii]

theorem isDigit_of_capitalized (capitalized : isCapitalized c) : c.isDigit = false := by
  by_contra digit
  rw [Bool.not_eq_false, Char.isDigit, Bool.and_eq_true, decide_eq_true_eq, decide_eq_true_eq]
    at digit
  have digits : ∀ code < 58, 48 ≤ code → isCapitalized (Char.ofNat code) = false := by decide
  have plain := digits c.toNat (Nat.lt_succ_of_le digit.2) digit.1
  rw [Char.ofNat_toNat, capitalized] at plain
  cases plain

/-- A letter starts a word, where it does not announce bytes. -/
theorem piece_of_letter (capitalized : isCapitalized c) (no_bytes : c ≠ 'x' ∧ c ≠ 'X') :
    piece (c :: rest) = (.word, run inName (c :: rest)) := by
  have other {d : Char} (plain : isCapitalized d = false) : c ≠ d := by
    rintro rfl
    rw [plain] at capitalized
    cases capitalized
  rw [piece.eq_8 c rest (fun _ is => absurd is (other (by decide)))
    (fun _ _ is => absurd is (other (by decide))) (fun _ is => absurd is (other (by decide)))
    (fun _ is => absurd is no_bytes.1) (fun _ is => absurd is no_bytes.2) (other (by decide))]
  simp (disch := decide) [isSpace, other, isDigit_of_capitalized capitalized,
    inName_of_capitalized capitalized]

/-- Where the capital is an ASCII letter, the letter is one. -/
theorem upperChar_of_ascii (ascii : c.toUpper.toNat < 128) : Text.upperChar c = [c.toUpper] := by
  rw [Text.upperChar, if_pos]
  by_contra beyond
  have same : c.toUpper = c := by
    refine dif_neg ?_
    rintro ⟨-, low⟩
    rw [UInt32.le_iff_toNat_le] at low
    exact beyond (lt_of_le_of_lt low (by decide))
  exact beyond (same ▸ ascii)

end Letters

/-- **The database reads a word that starts a query with all of its letters.** There may be more. -/
theorem keyword_prefix {word rest : List Char} {offset fuel : Nat} {keyword : String}
    (capitals : ∀ d ∈ Text.upper (String.ofList word) |>.toList, d.isUpper ∧ d ≠ 'X')
    (some_word : word ≠ [])
    (found : openingFrom offset (shown (word ++ rest)) (fuel + 1) = keyword)
    (ascii : ∀ d ∈ keyword.toList, d.toNat < 128) :
    (Text.upper (String.ofList word)).toList <+: keyword.toList := by
  rw [Text.upper, String.toList_ofList, String.toList_ofList] at *
  have each : ∀ c ∈ word, isCapitalized c ∧ c ≠ 'x' ∧ c ≠ 'X' := by
    intro c here
    have letters : ∀ d ∈ Text.upperChar c, d.isUpper ∧ d ≠ 'X' := fun d there =>
      capitals d (List.mem_flatMap.mpr ⟨c, here, there⟩)
    refine ⟨List.all_eq_true.mpr fun d there => (letters d there).1, ?_, ?_⟩
    · rintro rfl
      exact (letters 'X' (by decide)).2 rfl
    · rintro rfl
      exact (letters 'X' (by decide)).2 rfl
  have seen : '\x00' ∉ word := fun zero => absurd (each _ zero).1 (by decide)
  rw [shown_append seen] at found
  obtain ⟨c, letters, rfl⟩ := List.exists_cons_of_ne_nil some_word
  obtain ⟨capitalized, no_bytes⟩ := each c List.mem_cons_self
  rw [List.cons_append, openingFrom_word (piece_of_letter capitalized no_bytes)] at found
  have taken : ((c :: (letters ++ shown rest)).take (run inName (c :: (letters ++ shown rest)))) =
      (c :: letters) ++ (shown rest).takeWhile inName := by
    rw [run, ← List.prefix_iff_eq_take.mp (List.takeWhile_prefix _), ← List.cons_append]
    exact List.takeWhile_append_of_pos fun d here => inName_of_capitalized (each d here).1
  rw [taken] at found
  have spelled : keyword.toList =
      (c :: letters).map Char.toUpper ++ ((shown rest).takeWhile inName).map Char.toUpper := by
    rw [← found]
    simp
  have plain : (c :: letters).flatMap Text.upperChar = (c :: letters).map Char.toUpper := by
    rw [List.map_eq_flatMap]
    refine List.flatMap_congr fun d here => upperChar_of_ascii (ascii _ ?_)
    rw [spelled]
    exact List.mem_append_left _ (List.mem_map_of_mem here)
  rw [plain, spelled]
  exact List.prefix_append _ _

end Store.Marks

namespace Sql

/-- What is white space for the database is white space for the check. -/
theorem isBlank_of_continuesSpace {c : Char} (space : Store.Marks.continuesSpace c) :
    Text.isBlank c := by
  simp only [Store.Marks.continuesSpace, Store.Marks.isSpace, Bool.or_eq_true, beq_iff_eq] at space
  rcases space with ((((rfl | rfl) | rfl) | rfl) | rfl) | rfl <;> rfl

/-- A token that starts a query is no word of a change for the database. -/
theorem openingFrom_of_opensQuery {left more : List Char} {p : Lexer.Piece}
    (taken : Lexer.piece left = some p) (opens : Parse.opensQuery p.token) (offset fuel : Nat) :
    Store.Marks.openingFrom offset (Store.Marks.shown (p.source ++ more)) fuel ∉
      Store.Marks.changeOpenings := by
  cases fuel with
  | zero =>
    rw [Store.Marks.openingFrom_zero]
    decide
  | succ fuel =>
    rw [Parse.opensQuery, Bool.or_eq_true, List.contains_iff_mem, beq_iff_eq] at opens
    rcases opens with word | bracket
    · have words : ∀ keyword ∈ ["SELECT", "WITH", "VALUES"], keyword ≠ "" ∧
          (keyword.toList.all fun d => d.isUpper ∧ d ≠ 'X') ∧
          ∀ other ∈ Store.Marks.changeOpenings, ¬keyword.toList <+: other.toList := by decide
      have ascii : ∀ other ∈ Store.Marks.changeOpenings,
          other.toList.all fun d => d.toNat < 128 := by decide
      obtain ⟨named, capitals, unlike⟩ := words _ word
      simp only [List.all_eq_true, decide_eq_true_eq] at capitals ascii
      obtain ⟨value, is⟩ := Token.eq_word_of_keyword named
      have spelled := Lexer.piece_spelling taken (is ▸ rfl : p.token.spelling? = some value)
      rw [is, Token.keyword] at capitals unlike
      intro among
      refine unlike _ among ?_
      rw [spelled] at among ⊢
      have read := Store.Marks.keyword_prefix (by rwa [String.ofList_toList])
        (spelled ▸ (Lexer.piece_front taken).2.1) rfl (ascii _ among)
      rwa [String.ofList_toList] at read
    · have spelled := Lexer.piece_spelling taken (bracket ▸ rfl : p.token.spelling? = some "(")
      rw [spelled, show "(".toList ++ more = '(' :: more from rfl, Store.Marks.shown_cons,
        if_neg (by decide),
        Store.Marks.openingFrom_plain (show Store.Marks.piece _ = (.plain, 1) from rfl) (.inl rfl)]
      decide

/-- **An accepted text does not open like a change.** If no comment in front of its first statement
opens another one, the word that the database finds there starts no change: it is one that a query
starts with, or no keyword at all. -/
theorem ReadQuery.openingWord_of_accepted {text : String} {query : ReadQuery}
    (accepted : ofText text = .ok query) (plain : plainFront text) :
    Store.Marks.openingWord query.sql ∉ Store.Marks.changeOpenings := by
  obtain ⟨statement, parsed, select, -, rfl⟩ := ofText_eq_ok accepted
  obtain ⟨_, read⟩ := Parse.parse_cons parsed
  obtain ⟨_, -, starts, -⟩ := Parse.statement_reads read select
  have lexed := (parse_eq_ok parsed).1
  rw [Lexer.lex_eq] at lexed
  obtain ⟨ps, pieced, same⟩ := Option.map_eq_some_iff.mp lexed
  have flat : ∀ p ∈ ps.takeWhile Lexer.Piece.isFront, p.nests = false := by
    rw [plainFront, Lexer.pieces, ← String.length_toList, ← Lexer.cut, pieced] at plain
    simpa using plain
  obtain ⟨front, left, p, split, gaps, taken, opens⟩ :=
    Lexer.gaps_of_cut pieced (same ▸ starts) flat
  obtain ⟨spelling, spelled, bare⟩ := bare_of_opensQuery opens
  rw [← Lexer.piece_spelling taken spelled] at bare
  obtain ⟨split_left, some_taken, -⟩ := Lexer.piece_front taken
  obtain ⟨kept, more, trimmed, gaps⟩ := Lexer.trimChars_gaps gaps some_taken bare p.rest
  rw [← split_left, ← split] at trimmed
  have stops : ∀ c ∈ (p.source ++ more).head?, Store.Marks.continuesSpace c = false := by
    intro c at_front
    rw [List.head?_append_of_ne_nil _ some_taken] at at_front
    by_contra space
    rw [Bool.not_eq_false] at space
    have blank := isBlank_of_continuesSpace space
    rw [bare c (List.mem_of_head? at_front)] at blank
    cases blank
  have opened := Store.Marks.openingFrom_gaps (· ∉ Store.Marks.changeOpenings) (by decide) gaps
    stops (openingFrom_of_opensQuery taken opens) 0 (Text.trim text).length
  rw [← trimmed] at opened
  rw [Store.Marks.openingWord, Store.Marks.pieces, Text.trim, String.toList_ofList]
  exact opened

end Sql

end GridReport
