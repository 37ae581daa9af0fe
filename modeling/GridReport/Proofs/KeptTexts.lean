import GridReport.Proofs.KeptQueries
import GridReport.Sql.Grammar.Statement

/-!
Texts of one query, and the placeholders that are written in them.

* `statementFrom_reads` — only a query is a statement that reads.
* `statementsFrom_single` — a text of one query keeps its placeholders.
* `ReadsWhole.mem_placeholders` — the tree of a text that is read to its end holds the placeholders
  that are written in the text.
-/

namespace GridReport.Sql

namespace Parse

variable {α β : Type} {step : Parse α} {before after : List Lexeme}

/-! ### Kinds of statements -/

/-- Whatever the step gives is of this sort. -/
def Yields (step : Parse α) (sort : α → Prop) : Prop :=
  ∀ before a after, step before = .ok (a, after) → sort a

variable {sort : α → Prop}

theorem Yields.pure {a : α} (is : sort a) : Yields (Pure.pure a) sort := by
  intro before a' after taken
  cases taken
  exact is

theorem Yields.fails : Yields (failure : Parse α) sort := by
  intro before a after taken
  cases taken

/-- The second step may rely on what the first one gives. -/
theorem Yields.thread {first : Parse β} {sort' : β → Prop} {next : β → Parse α}
    (one : Yields first sort') (two : ∀ b, sort' b → Yields (next b) sort) :
    Yields (first >>= next) sort := by
  intro before a after taken
  obtain ⟨b, mid, taken₁, taken₂⟩ := bind_eq_ok.mp taken
  exact two b (one before b mid taken₁) mid a after taken₂

/-- The last of two steps decides. -/
theorem Yields.bind {first : Parse β} {next : β → Parse α} (last : ∀ b, Yields (next b) sort) :
    Yields (first >>= next) sort :=
  Yields.thread (fun _ _ _ _ => trivial) fun b (_ : True) => last b

theorem Yields.ite {c : Prop} [Decidable c] {other : Parse α} (yes : Yields step sort)
    (no : Yields other sort) : Yields (if c then step else other) sort := by
  split
  · exact yes
  · exact no

/-- The kind is none of a query. -/
def Unread (kind : StatementKind) : Prop := kind ≠ .select

section Commands

variable (grammar : Grammar)

-- Only the last step of a command decides its kind, so each of them is followed to its ends.

theorem definition_unread : Yields (definition grammar) Unread := by
  unfold definition
  repeat' first
    | exact .pure (by simp [Unread])
    | exact .fails
    | refine .ite ?_ ?_
    | refine .bind fun _ => ?_

theorem alteration_unread : Yields (alteration grammar) Unread := by
  refine .bind fun _ => ?_
  split <;> repeat' first
    | exact .pure (by simp [Unread])
    | refine .bind fun _ => ?_

/-- No command is a query. -/
theorem command_unread (word : String) : Yields (command grammar word) Unread := by
  unfold command
  split
  · exact definition_unread grammar
  · exact alteration_unread grammar
  all_goals repeat' first
    | exact .pure (by simp [Unread])
    | exact .fails
    | refine .ite ?_ ?_
    | refine .bind fun _ => ?_

end Commands

/-- What follows is no statement that reads. -/
def Explained.Unread : Explained → Prop
  | .explanation => True
  | .other statement => Parse.Unread statement.kind

theorem deletion_unread (grammar : Grammar) :
    Yields (deletion grammar) fun statement => Unread statement.kind := by
  unfold deletion
  repeat' first
    | exact .pure (by simp [Unread, Statement.kind])
    | refine .ite ?_ ?_
    | refine .bind fun _ => ?_

/-- A removal is none. -/
theorem removal_unread : Yields removal fun statement => Unread statement.kind := by
  unfold removal
  repeat' first
    | exact .pure (by simp [Unread, Statement.kind])
    | exact .fails
    | refine .ite ?_ ?_
    | refine .bind fun _ => ?_

/-- The token may start a query. -/
def opensQuery (token : Token) : Bool :=
  ["SELECT", "WITH", "VALUES"].contains token.keyword || token == .symbol "("

/-- The first of the tokens may start a query. -/
def startsQuery (lexemes : List Lexeme) : Bool :=
  lexemes.head?.any fun first => opensQuery first.token

/-- In front of these tokens the step gives a query only if they start one, and only if it takes
nothing but the query. -/
def ReadsAt (before : List Lexeme) (grammar : Grammar) (step : Parse Explained) : Prop :=
  ∀ given after, step before = .ok (given, after) → given.Unread ∨
    ∃ query, given = .other (.query query) ∧ startsQuery before ∧
      grammar.query before = .ok (query, after)

section Reading

variable {grammar : Grammar} {step : Parse Explained}

/-- Where a query starts and is taken as one, it is read. -/
theorem ReadsAt.query (opens : startsQuery before) :
    ReadsAt before grammar (do return .other (.query (← grammar.query))) := by
  intro given after taken
  obtain ⟨query, mid, taken₁, taken₂⟩ := bind_eq_ok.mp taken
  cases taken₂
  exact .inr ⟨query, rfl, opens, taken₁⟩

/-- A step that gives no query may be taken anywhere. -/
theorem Yields.readsAt (none_read : Yields step Explained.Unread) : ReadsAt before grammar step :=
  fun given after taken => .inl (none_read before given after taken)

theorem ReadsAt.ite {c : Prop} [Decidable c] {other : Parse Explained}
    (yes : c → ReadsAt before grammar step) (no : ReadsAt before grammar other) :
    ReadsAt before grammar (if c then step else other) := by
  split
  · exact yes ‹c›
  · exact no

/-- A step after one that only looks ahead. -/
theorem ReadsAt.look {look : Parse α} {a : α} {next : α → Parse Explained}
    (stays : look before = .ok (a, before)) (then_ : ReadsAt before grammar (next a)) :
    ReadsAt before grammar (look >>= next) := by
  intro given after taken
  obtain ⟨a', mid, taken₁, taken₂⟩ := bind_eq_ok.mp taken
  cases stays.symm.trans taken₁
  exact then_ given after taken₂

end Reading

/-- The condition by which a statement is taken for a query. -/
theorem startsQuery_of_taken {dialect : Dialect}
    (taken : ["SELECT", "WITH", "VALUES"].contains
        ((before[0]?.map (·.token.keyword)).getD "") ||
      (dialect.bracketedQueries && before[0]?.map Lexeme.token == some (.symbol "("))) :
    startsQuery before := by
  cases before with
  | nil => simp at taken
  | cons first rest =>
    simp only [startsQuery, opensQuery, List.head?_cons, Option.any_some, Bool.or_eq_true,
      Bool.and_eq_true] at taken ⊢
    exact taken.imp id fun bracket => by simpa using bracket.2

/-- At any depth a statement is a query only if it starts like one and is taken as one. -/
theorem statementFrom_reads (dialect : Dialect) (depth : Nat) (before : List Lexeme) :
    ReadsAt before (Grammar.ofDepth dialect depth) (statementFrom dialect (depth + 1)) := by
  refine .look rfl (.look rfl (.ite (fun taken => ?_) (Yields.readsAt ?_)))
  · exact .query (startsQuery_of_taken taken)
  refine .ite (.bind fun _ => .pure (by simp [Explained.Unread, Unread, Statement.kind])) ?_
  refine .ite .fails (.bind fun _ => ?_)
  refine .ite (.bind fun _ => .pure trivial) (.ite ?prepare ?_)
  case prepare =>
    have prepared : Yields (do
        keyword "AS"
        let _ ← statementFrom dialect depth
        return Explained.other (.command .other)) Explained.Unread :=
      .bind fun _ => .bind fun _ => .pure (by simp [Explained.Unread, Unread, Statement.kind])
    refine .bind fun _ => .bind fun _ => .ite ?_ prepared
    exact .bind fun _ => .bind fun _ => prepared
  refine .ite (.bind fun _ => .pure (by simp [Explained.Unread, Unread, Statement.kind])) ?_
  refine .ite (.bind fun _ => .pure (by simp [Explained.Unread, Unread, Statement.kind])) ?_
  refine .ite ((deletion_unread _).thread fun _ is => .pure is) ?_
  refine .ite (removal_unread.thread fun _ is => .pure is) ?_
  exact (command_unread _ _).thread fun _ is => .pure is

/-- A statement that reads starts like a query and has been read as one. -/
theorem statement_reads {dialect : Dialect} {given : Statement}
    (taken : statement dialect before = .ok (given, after)) (select : given.kind = .select) :
    ∃ query, given = .query query ∧ startsQuery before ∧
      (Grammar.ofDepth dialect 49).query before = .ok (query, after) := by
  obtain ⟨explained, mid, taken₁, taken₂⟩ := bind_eq_ok.mp taken
  have reads := statementFrom_reads dialect 49 before explained mid taken₁
  cases explained with
  | explanation =>
    cases taken₂
    cases select
  | other inner =>
    cases taken₂
    rcases reads with unread | ⟨query, is, opens, read⟩
    · exact absurd select unread
    · cases is
      exact ⟨query, rfl, opens, read⟩

/-- A statement that reads keeps the placeholders of the query that it has been read as. -/
theorem statement_select {dialect : Dialect} {given : Statement}
    (taken : statement dialect before = .ok (given, after)) (select : given.kind = .select)
    (lossless : Lossless before) : Lossless after ∧
      ∀ name, name ∈ written before ↔ name ∈ given.placeholders ++ written after := by
  obtain ⟨query, rfl, -, read⟩ := statement_reads taken select
  exact (Grammar.ofDepth_keeps dialect 49).query before query after read lossless

/-! ### Texts of one statement -/

/-- Tokens that start no placeholder can be left out, however many there are. -/
theorem written_dropWhile {test : Lexeme → Bool}
    (plain : ∀ lexeme, test lexeme → lexeme.token.startsPlaceholder = false)
    (lexemes : List Lexeme) : written (lexemes.dropWhile test) = written lexemes := by
  induction lexemes with
  | nil => rfl
  | cons head tail ih =>
    rw [List.dropWhile_cons]
    split
    · rename_i passed
      rw [ih, written_cons_of_plain (plain head passed)]
    · rfl

/-- The tokens after the semicolons in front. -/
def afterSemicolons (lexemes : List Lexeme) : List Lexeme :=
  lexemes.dropWhile fun lexeme => lexeme.token == .symbol ";"

theorem afterSemicolons_subset (lexemes : List Lexeme) : afterSemicolons lexemes ⊆ lexemes :=
  List.dropWhile_subset _

theorem written_afterSemicolons (lexemes : List Lexeme) :
    written (afterSemicolons lexemes) = written lexemes := by
  refine written_dropWhile (fun lexeme passed => ?_) lexemes
  rw [beq_iff_eq.mp passed]
  rfl

/-- Where no statement is taken, no placeholder is. -/
theorem statementsFrom_nil {dialect : Dialect} {isFirst : Bool} {fuel : Nat}
    (taken : statementsFrom dialect isFirst fuel before = .ok ([], after)) :
    written before = written after := by
  cases fuel with
  | zero => cases taken
  | succ fuel =>
    obtain ⟨separated, mid, taken₁, taken⟩ := bind_eq_ok.mp taken
    cases taken₁
    obtain ⟨coming, mid, taken₂, taken⟩ := bind_eq_ok.mp taken
    cases taken₂
    split at taken
    · cases taken
      exact (written_afterSemicolons before).symm
    · split at taken
      · obtain ⟨head, mid, -, taken⟩ := bind_eq_ok.mp taken
        obtain ⟨tail, mid, -, taken⟩ := bind_eq_ok.mp taken
        cases taken
      · obtain ⟨word, mid, taken₃, taken⟩ := bind_eq_ok.mp taken
        cases taken₃
        split at taken
        · cases taken
          exact (written_afterSemicolons before).symm
        · cases taken

/-- The first of several statements comes after semicolons, and the others come after it. -/
theorem statementsFrom_cons {dialect : Dialect} {isFirst : Bool} {fuel : Nat} {head : Statement}
    {tail : List Statement}
    (taken : statementsFrom dialect isFirst fuel before = .ok (head :: tail, after)) :
    ∃ mid left, statement dialect (afterSemicolons before) = .ok (head, mid) ∧
      statementsFrom dialect false left mid = .ok (tail, after) := by
  cases fuel with
  | zero => cases taken
  | succ fuel =>
    obtain ⟨separated, mid, taken₁, taken⟩ := bind_eq_ok.mp taken
    cases taken₁
    obtain ⟨coming, mid, taken₂, taken⟩ := bind_eq_ok.mp taken
    cases taken₂
    split at taken
    · cases taken
    · split at taken
      · obtain ⟨first, mid, taken₃, taken⟩ := bind_eq_ok.mp taken
        obtain ⟨others, last, taken₄, taken⟩ := bind_eq_ok.mp taken
        cases taken
        exact ⟨mid, fuel, taken₃, taken₄⟩
      · obtain ⟨word, mid, taken₃, taken⟩ := bind_eq_ok.mp taken
        cases taken₃
        split at taken
        · cases taken
        · cases taken

/-- Where one query is taken, its placeholders are. -/
theorem statementsFrom_single {dialect : Dialect} {isFirst : Bool} {fuel : Nat} {given : Statement}
    (taken : statementsFrom dialect isFirst fuel before = .ok ([given], after))
    (select : given.kind = .select) (lossless : Lossless before) (name : String) :
    name ∈ written before ↔ name ∈ given.placeholders ++ written after := by
  obtain ⟨mid, left, taken₁, taken₂⟩ := statementsFrom_cons taken
  obtain ⟨-, kept⟩ := statement_select taken₁ select (lossless.suffix (List.dropWhile_suffix _))
  rw [← written_afterSemicolons, kept, statementsFrom_nil taken₂]

end Parse

/-- The tokens of a text, none if it cannot be cut into tokens. -/
def tokens (text : String) : List Lexeme := (Lexer.lex text).getD []

/-- A text that is read is cut into tokens, and the statements are taken off them. -/
theorem parse_eq_ok {dialect : Dialect} {text : String} {all : List Statement}
    (parsed : parse dialect text = .ok all) : Lexer.lex text = some (tokens text) ∧
      ∃ after, Parse.statements dialect (tokens text) = .ok (all, after) := by
  rw [parse] at parsed
  cases lexed : Lexer.lex text with
  | none =>
    rw [lexed] at parsed
    cases parsed
  | some lexemes =>
    rw [tokens, lexed, Option.getD_some]
    simp only [lexed] at parsed
    cases read : Parse.statements dialect lexemes with
    | error left =>
      rw [read] at parsed
      cases parsed
    | ok result =>
      obtain ⟨statements, after⟩ := result
      rw [read] at parsed
      cases parsed
      exact ⟨rfl, after, rfl⟩

/-- The first statement of a text comes after semicolons. -/
theorem Parse.parse_cons {text : String} {first : Statement} {others : List Statement}
    (parsed : parse dialect text = .ok (first :: others)) :
    ∃ mid, Parse.statement dialect (Parse.afterSemicolons (tokens text)) = .ok (first, mid) := by
  obtain ⟨-, after, read⟩ := parse_eq_ok parsed
  obtain ⟨mid, left, taken, -⟩ :=
    Parse.statementsFrom_cons (read : Parse.statementsFrom _ true _ _ = _)
  exact ⟨mid, taken⟩

/-- The check takes all tokens of the text for statements, and none of them opens a clause that
keeps less than it takes. -/
structure ReadsWhole (text : String) : Prop where
  taken : (Parse.statements .checking (tokens text)).toOption.map Prod.snd = some []
  lossless : Lossless (tokens text)

/-- The placeholders in the tree of a query are those that are written in its text. -/
theorem ReadsWhole.mem_placeholders {text : String} (whole : ReadsWhole text)
    {statement : Statement} (parsed : parse .checking text = .ok [statement])
    (select : statement.kind = .select) {name : String} :
    name ∈ statement.placeholders ↔ name ∈ written (tokens text) := by
  obtain ⟨taken, lossless⟩ := whole
  obtain ⟨-, after, read⟩ := parse_eq_ok parsed
  rw [read] at taken
  cases taken
  have same := Parse.statementsFrom_single (read : Parse.statementsFrom _ true _ _ = _) select
    lossless name
  rwa [written, List.append_nil, iff_comm] at same

end GridReport.Sql
