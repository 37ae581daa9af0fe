import GridReport.Proofs.ParameterTexts

/-!
Which placeholders of a query a value can be given to.

A placeholder has the name that is written in the text of a query, and a parameter the one that its
own text says: a colon and what stands in front of the first equals sign. Both are compared letter
by letter, so a placeholder that no parameter has the name of cannot be given a value.

* `parse_named_iff` — the names that a parameter can have.
* `arguments_pass_iff` — the queries whose check some arguments pass.
* `tokens_bareName` — the letters of words without quotes and of numbers.
* `ofText_runnable` — the accepted texts that can be run.
* `unnamed_at_placeholder` — one that cannot.
-/

namespace GridReport

namespace Parameter

/-- The placeholder is a colon and a name that the text of a parameter can say: it has no equals
sign, it starts with no other colon, and it does not end with white space. -/
def Nameable (placeholder : String) : Prop :=
  ∃ name : List Char, placeholder.toList = ':' :: name ∧ name ≠ [] ∧ '=' ∉ name ∧
    (∀ c ∈ name.head?, c ≠ ':') ∧ ∀ c ∈ name.getLast?, Text.isBlank c = false

/-- A name is the end of what stands in front of the equals sign. -/
theorem nameOf_suffix (before : List Char) : nameOf before <:+ Text.trimChars before :=
  List.dropWhile_suffix _

theorem nameOf_subset (before : List Char) : nameOf before ⊆ before := by
  obtain ⟨trail, split, -, -⟩ := Sql.trimChars_append before
  intro c here
  have kept : c ∈ Text.trimChars before ++ trail :=
    List.mem_append_left _ ((nameOf_suffix before).subset here)
  rw [← split] at kept
  exact (List.dropWhile_subset _) kept

/-- The name that the text of a parameter says is one. -/
theorem nameable_of_parse {given : String} {parameter : Parameter}
    (parsed : parse given = .ok parameter) : Nameable parameter.name := by
  obtain ⟨before, rest, -, absent, some_name, named, -⟩ := parse_eq_ok.mp parsed
  refine ⟨nameOf before, by rw [named, String.toList_ofList], some_name,
    fun here => absent (nameOf_subset before here), ?_, ?_⟩
  · intro c first
    have bare := List.head?_dropWhile_not (· == ':') (Text.trimChars before)
    rw [← nameOf, Option.mem_def.mp first] at bare
    simpa using bare
  · intro c last
    obtain ⟨-, -, -, ends⟩ := Sql.trimChars_append before
    refine ends c ?_
    obtain ⟨front, split⟩ := nameOf_suffix before
    rw [← split, List.getLast?_append_of_ne_nil _ some_name]
    exact last

/-- A name that can be said is read back, whatever the value. -/
theorem parse_nameable {placeholder : String} (nameable : Nameable placeholder) (value : String) :
    parse (placeholder ++ "=" ++ value) =
      .ok ⟨placeholder, valueOf (Text.trimChars value.toList)⟩ := by
  obtain ⟨name, spelled, some_name, absent, single, ends⟩ := nameable
  have untrimmed : Text.trimChars placeholder.toList = placeholder.toList := by
    rw [spelled]
    refine Sql.trimChars_of_bare ?_ ?_
    · rintro c ⟨⟩
      decide
    · intro c last
      rw [List.getLast?_cons_of_ne_nil some_name] at last
      exact ends c last
  have said : nameOf placeholder.toList = name := by
    obtain ⟨first, others, rfl⟩ := List.exists_cons_of_ne_nil some_name
    rw [nameOf, untrimmed, spelled, List.dropWhile_cons_of_pos rfl,
      List.dropWhile_cons_of_neg (by simpa using single first rfl)]
  refine parse_eq_ok.mpr ⟨placeholder.toList, value.toList, by simp, ?_, by rwa [said], ?_,
    valueOf_eq_iff.mp rfl⟩
  · rw [spelled]
    simpa using absent
  · rw [said, ← spelled, String.ofList_toList]

/-- A value is given to just the placeholders that can be named. -/
theorem parse_named_iff {placeholder value : String} :
    (∃ parameter, parse (placeholder ++ "=" ++ value) = .ok parameter ∧
      parameter.name = placeholder) ↔ Nameable placeholder := by
  constructor
  · rintro ⟨parameter, parsed, rfl⟩
    exact nameable_of_parse parsed
  · intro nameable
    exact ⟨_, parse_nameable nameable value, rfl⟩

end Parameter

/-! ### Arguments that pass -/

open Parameter in
/-- Some arguments give a value to all placeholders of a query and to nothing else exactly if all of
them can be named. -/
theorem Session.arguments_pass_iff {query : Sql.ReadQuery} :
    (∃ arguments parameters, List.Forall₂ (parse · = .ok ·) arguments parameters ∧
      checkParameters query parameters = .ok ()) ↔
      ∀ placeholder ∈ query.placeholders, Nameable placeholder := by
  constructor
  · rintro ⟨arguments, parameters, given, passes⟩ placeholder here
    obtain ⟨parameter, listed, rfl⟩ :=
      List.mem_map.mp ((checkParameters_eq_ok.mp passes placeholder).mp here)
    obtain ⟨argument, parsed⟩ : ∃ argument, parse argument = .ok parameter := by
      obtain ⟨i, rfl⟩ := List.mem_iff_get.mp listed
      obtain ⟨sizes, each⟩ := List.forall₂_iff_get.mp given
      exact ⟨_, each i (by rw [sizes]; exact i.isLt) i.isLt⟩
    exact nameable_of_parse parsed
  · intro nameable
    refine ⟨query.placeholders.map (· ++ "=" ++ "0"),
      query.placeholders.map (⟨·, valueOf (Text.trimChars "0".toList)⟩), ?_, ?_⟩
    · rw [List.forall₂_map_left_iff, List.forall₂_map_right_iff, List.forall₂_same]
      exact fun placeholder here => parse_nameable (nameable placeholder here) "0"
    · rw [checkParameters_eq_ok]
      simp [Function.comp_def]

/-! ### Names as they are written -/

namespace Sql

/-- The name that a word without quotes or a number gives to a placeholder. -/
def Token.bareName? : Token → Option String
  | .word ⟨value, none⟩ => some value
  | .number digits false => some digits
  | _ => none

namespace Lexer

variable {chars : List Char} {p : Piece} {name : String}

/-- The letter is none that ends the name of a parameter or stands in front of one. -/
def Inner (c : Char) : Prop := c ≠ '=' ∧ c ≠ ':'

/-- Letters of names may stand in a name that is given. -/
theorem inner_of_continuesName {c : Char} (continues : continuesName c) : Inner c := by
  constructor <;> rintro rfl <;> cases continues

theorem inner_of_isDigit {c : Char} (digit : c.isDigit) : Inner c :=
  inner_of_continuesName (by simp [continuesName, digit])

/-- So may those of numbers. -/
theorem mantissa_inner (chars : List Char) : ∀ c ∈ mantissa chars, Inner c := by
  induction chars with
  | nil => simp [mantissa]
  | cons first rest ih =>
    rw [mantissa]
    split
    · exact List.forall_mem_cons.mpr ⟨inner_of_isDigit ‹_›, ih⟩
    · split
      · rename_i point
        refine List.forall_mem_cons.mpr ⟨?_, fun c here =>
          inner_of_isDigit (List.mem_takeWhile_imp here)⟩
        rw [point]
        exact ⟨by decide, by decide⟩
      · simp

theorem exponentDigits_inner (chars : List Char) : ∀ c ∈ exponentDigits chars, Inner c := by
  cases chars with
  | nil => simp [exponentDigits]
  | cons letter rest =>
    have signed : ∀ c ∈ (signedDigits rest).1 ++ (signedDigits rest).2, Inner c := by
      cases rest with
      | nil => simp [signedDigits]
      | cons first rest =>
        rw [signedDigits]
        split
        · rename_i sign
          refine List.forall_mem_cons.mpr ⟨?_, fun c here =>
            inner_of_isDigit (List.mem_takeWhile_imp here)⟩
          rcases (by simpa using sign : first = '+' ∨ first = '-') with rfl | rfl
          · exact ⟨by decide, by decide⟩
          · exact ⟨by decide, by decide⟩
        · exact fun c here => inner_of_isDigit (List.mem_takeWhile_imp here)
    rw [exponentDigits_cons]
    split
    · rename_i exponent
      refine List.forall_mem_cons.mpr ⟨?_, signed⟩
      rcases (by simpa using (Bool.and_eq_true_iff.mp exponent).1 : letter = 'e' ∨ letter = 'E')
        with rfl | rfl
      · exact ⟨by decide, by decide⟩
      · exact ⟨by decide, by decide⟩
    · simp

/-- A number that names a placeholder is spelled as the name. -/
theorem number_bareName (taken : number chars = some p)
    (named : p.token.bareName? = some name) :
    p.source = name.toList ∧ ∀ c ∈ name.toList, Inner c := by
  by_cases hex : ∃ rest, chars = '0' :: 'x' :: rest
  · obtain ⟨rest, rfl⟩ := hex
    rw [number_hex] at taken
    cases taken
    cases named
  · rw [number_eq fun rest same => hex ⟨rest, same⟩] at taken
    split at taken
    · cases taken
      cases named
    · simp only [numbered.eq_def] at taken
      split at taken
      · cases taken
        cases named
      · cases taken
        cases named
        rw [String.toList_ofList, List.forall_mem_append]
        exact ⟨rfl, mantissa_inner _, exponentDigits_inner _⟩

/-- No symbol names one. -/
theorem symbol_bareName (taken : symbol chars = some p) : p.token.bareName? = none := by
  rw [symbol.eq_def] at taken
  split at taken
  · cases taken
    rfl
  · cases taken
    rfl
  · cases taken

theorem otherPiece_bareName {c : Char} {rest : List Char} (taken : otherPiece c rest = some p)
    (named : p.token.bareName? = some name) :
    p.source = name.toList ∧ ∀ c ∈ name.toList, Inner c := by
  rw [otherPiece] at taken
  split at taken
  · cases taken
    cases named
  split at taken
  · cases taken
    cases named
    rw [String.toList_ofList]
    exact ⟨rfl, fun c here => inner_of_continuesName (List.mem_takeWhile_imp here)⟩
  split at taken
  · exact number_bareName taken named
  split at taken
  · cases taken
    cases named
  · rw [symbol_bareName taken] at named
    cases named

/-- A word without quotes and a number are written as they are, and no letter of theirs is an equals
sign or a colon. -/
theorem piece_bareName (taken : piece chars = some p) (named : p.token.bareName? = some name) :
    name.toList ≠ [] ∧ ∀ c ∈ name.toList, Inner c := by
  obtain ⟨-, some_taken, -⟩ := piece_front taken
  suffices written : p.source = name.toList ∧ ∀ c ∈ name.toList, Inner c from
    ⟨written.1 ▸ some_taken, written.2⟩
  rw [piece.eq_def] at taken
  split at taken
  case h_1 => cases taken
  case h_16 => exact otherPiece_bareName taken named
  case h_4 rest =>
    obtain ⟨⟨source, after⟩, -, rfl⟩ := Option.map_eq_some_iff.mp taken
    cases named
  case h_2 | h_3 | h_15 =>
    cases taken
    cases named
  all_goals
    obtain ⟨q, -, rfl⟩ := Option.map_eq_some_iff.mp taken
    cases named

/-- The names that tokens give can be given. -/
theorem tokens_bareName {text : String} {lexeme : Lexeme} (here : lexeme ∈ tokens text)
    (named : lexeme.token.bareName? = some name) :
    name.toList ≠ [] ∧ ∀ c ∈ name.toList, Inner c := by
  rw [tokens, lex_eq] at here
  cases pieced : cut text.toList with
  | none =>
    rw [pieced] at here
    cases here
  | some ps =>
    rw [pieced] at here
    obtain ⟨p, listed, token, -⟩ := of_mem_lexemesFrom here
    obtain ⟨-, left, taken⟩ := of_mem_cut pieced p listed
    exact piece_bareName taken (token ▸ named)

end Lexer

/-- The placeholder is a colon and a name without quotes that does not end with white space. -/
def Token.isPlain (next : Option Token) (token : Token) : Bool :=
  (token.placeholder? next).isNone || token == .symbol ":" &&
    (next.bind bareName?).any fun name => name.toList.getLast?.all (!Text.isBlank ·)

/-- All placeholders among the tokens are written like this. -/
def plainlyWritten : List Lexeme → Bool
  | [] => true
  | head :: tail =>
    head.token.isPlain (tail.head?.map Lexeme.token) && plainlyWritten tail

theorem Token.placeholderName_of_bareName {token : Token} {name : String}
    (named : token.bareName? = some name) : token.placeholderName? = some name := by
  unfold bareName? at named
  split at named
  · exact named
  · exact named
  · cases named

/-- Placeholders that are plainly written can be named. -/
theorem nameable_of_plainlyWritten {lexemes : List Lexeme} (plain : plainlyWritten lexemes)
    (inner : ∀ lexeme ∈ lexemes, ∀ name, lexeme.token.bareName? = some name →
      name.toList ≠ [] ∧ ∀ c ∈ name.toList, Lexer.Inner c) :
    ∀ placeholder ∈ written lexemes, Parameter.Nameable placeholder := by
  induction lexemes with
  | nil => simp [written]
  | cons head tail ih =>
    rw [plainlyWritten, Bool.and_eq_true] at plain
    obtain ⟨first, others⟩ := plain
    rw [written, List.forall_mem_append]
    refine ⟨?_, ih others fun lexeme here => inner lexeme (List.mem_cons_of_mem _ here)⟩
    intro placeholder here
    rw [Option.mem_toList] at here
    rw [Token.isPlain, here, Option.isNone_some, Bool.false_or, Bool.and_eq_true,
      beq_iff_eq] at first
    obtain ⟨colon, named⟩ := first
    obtain ⟨name, bare, ends⟩ := Option.any_eq_true _ _ |>.mp named
    obtain ⟨next, coming, bare⟩ := Option.bind_eq_some_iff.mp bare
    have spelled : placeholder = ":" ++ name := by
      rw [coming, colon] at here
      have given : (next.placeholderName?).map (":" ++ ·) = some placeholder := here
      rw [Token.placeholderName_of_bareName bare] at given
      exact (Option.some.inj given).symm
    obtain ⟨lexeme, is_head, rfl⟩ := Option.map_eq_some_iff.mp coming
    obtain ⟨some_name, all⟩ :=
      inner lexeme (List.mem_cons_of_mem _ (List.mem_of_mem_head? is_head)) name bare
    refine ⟨name.toList, by rw [spelled]; simp, some_name, fun here => (all _ here).1 rfl, ?_, ?_⟩
    · exact fun c first => (all c (List.mem_of_mem_head? first)).2
    · exact fun c last => by simpa [Option.mem_def.mp last] using ends

namespace ReadQuery

/-- **The queries that can be run.** A value is given to a placeholder of an accepted query under
its own name exactly if it is a colon and a name that a parameter can have, and some arguments pass
the check of the query exactly if all its placeholders are such. So they are if each of them is
written as a colon and a word without quotes, or a number, that does not end with white space. -/
theorem ofText_runnable (text : String) (query : ReadQuery) (accepted : ofText text = .ok query) :
    (∀ placeholder ∈ query.placeholders, ∀ value,
      (∃ parameter, Parameter.parse (placeholder ++ "=" ++ value) = .ok parameter ∧
        parameter.name = placeholder) ↔ Parameter.Nameable placeholder) ∧
    ((∃ arguments parameters,
      List.Forall₂ (Parameter.parse · = .ok ·) arguments parameters ∧
        Session.checkParameters query parameters = .ok ()) ↔
      ∀ placeholder ∈ query.placeholders, Parameter.Nameable placeholder) ∧
    (ReadsWhole text → plainlyWritten (tokens text) →
      ∀ placeholder ∈ query.placeholders, Parameter.Nameable placeholder) := by
  refine ⟨fun placeholder _ value => Parameter.parse_named_iff, Session.arguments_pass_iff, ?_⟩
  intro whole plain placeholder here
  obtain ⟨statement, parsed, select, -, -⟩ := ofText_eq_ok accepted
  refine nameable_of_plainlyWritten plain (fun _ here _ => Lexer.tokens_bareName here)
    placeholder ?_
  rw [← whole.mem_placeholders parsed select]
  exact (mem_placeholders_ofText accepted parsed).mp here

theorem ofText_runnable_bounds :
    let text := "SELECT filesize FROM Files WHERE filesize > :min AND filesize < :7"
    let query : ReadQuery := ⟨text, [":min", ":7"]⟩
    ofText text = .ok query ∧ ReadsWhole text ∧ plainlyWritten (tokens text) ∧
      (∃ arguments parameters,
        List.Forall₂ (Parameter.parse · = .ok ·) arguments parameters ∧
          Session.checkParameters query parameters = .ok ()) := by
  intro text query
  have accepted : ofText text = .ok query := by decide +kernel
  have whole : ReadsWhole text := ⟨by decide +kernel, by decide +kernel⟩
  have plain : plainlyWritten (tokens text) := by decide +kernel
  obtain ⟨-, passes, named⟩ := ofText_runnable text query accepted
  exact ⟨accepted, whole, plain, passes.mpr (named whole plain)⟩

/-- A name after an at sign is a placeholder, and every parameter has a name after a colon: the
query is accepted, and no arguments pass its check. -/
theorem unnamed_at_placeholder :
    let text := "SELECT filesize FROM Files WHERE filesize > @min"
    let query : ReadQuery := ⟨text, ["@min"]⟩
    ofText text = .ok query ∧
      (Parameter.parse "@min=15").toOption.map Parameter.name = some ":@min" ∧
      ¬∃ arguments parameters,
        List.Forall₂ (Parameter.parse · = .ok ·) arguments parameters ∧
          Session.checkParameters query parameters = .ok () := by
  intro text query
  refine ⟨by decide +kernel, by decide +kernel, ?_⟩
  rw [Session.arguments_pass_iff]
  intro nameable
  obtain ⟨name, spelled, -⟩ := nameable "@min" List.mem_cons_self
  exact absurd (List.cons.inj spelled).1 (by decide)

end ReadQuery

end Sql

end GridReport
