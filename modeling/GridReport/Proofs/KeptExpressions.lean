import GridReport.Proofs.KeptTokens
import GridReport.Sql.Grammar.Expression
import GridReport.Sql.Placeholders

/-!
Expressions keep the placeholders that are written in them.

Each step of the grammar is proved from the steps that it calls; of the expressions and queries that
are nested in it the same is assumed, as they belong to the grammar one level deeper.

* `head_keeps`, `continued_keeps` — the start of an expression, and an operator with its right side.
* `expression_keeps` — a whole expression.
-/

namespace GridReport.Sql

open Parse

/-! ### Placeholders of a tree -/

attribute [simp] Expr.placeholders Expr.placeholdersOf Expr.placeholdersIn

/-- Expressions in a row have the placeholders of each, in their order. -/
theorem Expr.placeholdersOf_eq (items : List Expr) :
    Expr.placeholdersOf items = items.flatMap Expr.placeholders := by
  induction items with
  | nil => rfl
  | cons head tail ih => rw [Expr.placeholdersOf, ih, List.flatMap_cons]

@[simp] theorem Expr.placeholdersOf_append (items others : List Expr) :
    Expr.placeholdersOf (items ++ others) =
      Expr.placeholdersOf items ++ Expr.placeholdersOf others := by
  simp only [Expr.placeholdersOf_eq, List.flatMap_append]

theorem Expr.placeholdersOf_flatten (rows : List (List Expr)) :
    Expr.placeholdersOf rows.flatten = rows.flatMap Expr.placeholdersOf := by
  induction rows with
  | nil => rfl
  | cons head tail ih => rw [List.flatten_cons, placeholdersOf_append, ih, List.flatMap_cons]

@[simp] theorem Expr.placeholdersOf_toList (found : Option Expr) :
    Expr.placeholdersOf found.toList = Expr.placeholdersIn found := by
  cases found <;> simp

/-- An expression that is missing has none. -/
theorem Expr.placeholdersIn_eq (found : Option Expr) :
    Expr.placeholdersIn found = (found.map Expr.placeholders).getD [] := by
  cases found <;> rfl

/-- What is nested in the grammar keeps the placeholders that are written in it. -/
structure Grammar.Keeps (grammar : Grammar) : Prop where
  tighter (rank : Nat) : Parse.Keeps [] (grammar.tighter rank) Expr.placeholders
  query : Parse.Keeps [] grammar.query Query.placeholders

namespace Parse

theorem Keeps.expressions {item : Parse Expr} (own : Keeps [] item Expr.placeholders) :
    Keeps [] (Parse.commaList item) Expr.placeholdersOf :=
  own.commaList.congr fun all => by
    rw [Expr.placeholdersOf_eq]

/-- An expression after a word, if the word comes. -/
theorem Keeps.clause {step : Parse Expr} (own : Keeps [] step Expr.placeholders) {word : String}
    (named : word ≠ "") : Keeps [] (Parse.after? word step) Expr.placeholdersIn :=
  (own.after? named).congr fun found => by
    rw [Expr.placeholdersIn_eq]

end Parse

namespace Grammar.Keeps

variable {grammar : Grammar} (inner : grammar.Keeps)
include inner

theorem expression : Parse.Keeps [] grammar.expression Expr.placeholders := inner.tighter 0

theorem expressions : Parse.Keeps [] grammar.expressions Expr.placeholdersOf :=
  inner.expression.expressions

theorem clause {word : String} (named : word ≠ "") :
    Parse.Keeps [] (Parse.after? word grammar.expression) Expr.placeholdersIn :=
  inner.expression.clause named

theorem optional : Parse.Keeps [] (some <$> grammar.expression) Expr.placeholdersIn :=
  inner.expression.thread fun _ => .done rfl

end Grammar.Keeps

namespace Parse

/-! ### Values -/

theorem placeholderName_eq : value.placeholderName = takeAs Token.placeholderName? := rfl

/-- A placeholder of a sign and a name, or else something with neither. -/
theorem signed_keeps {sign : String} (is : sign = ":" ∨ sign = "@") {other : Parse Expr}
    (without : Keeps [] other Expr.placeholders) :
    Keeps [] (do
      if ← symbol? sign then return .placeholder (sign ++ (← value.placeholderName))
      else other) Expr.placeholders := by
  intro before expr after taken lossless
  obtain ⟨signed, mid, taken₁, taken₂⟩ := bind_eq_ok.mp taken
  cases before with
  | nil =>
    cases taken₁
    exact without [] expr after taken₂ lossless
  | cons head tail =>
    rw [symbol?, takeIf_cons] at taken₁
    split at taken₁
    · rename_i at_sign
      cases taken₁
      obtain ⟨name, mid, taken₃, taken₄⟩ := bind_eq_ok.mp taken₂
      rw [placeholderName_eq] at taken₃
      obtain ⟨second, rfl, known⟩ := takeAs_eq_ok taken₃
      cases taken₄
      refine ⟨lossless.tail.tail, ?_⟩
      rw [written, written_cons_of_plain (Token.plain_of_placeholderName known)]
      rcases is with rfl | rfl <;>
        simp [beq_iff_eq.mp at_sign, Token.placeholder?, known, Expr.placeholders]
    · cases taken₁
      exact without _ expr after taken₂ lossless

/-- A literal has no placeholder; a mark, or a sign with a name, is one. -/
theorem value_keeps : Keeps [] value Expr.placeholders := by
  refine signed_keeps (.inl rfl) (signed_keeps (.inr rfl) ?_)
  refine takeAs_keeps fun token expr is next => ?_
  split at is
  case h_2 =>
    -- An unquoted word is one of three literals, or none.
    split at is <;> cases is <;> rfl
  all_goals cases is <;> rfl

/-- A sign does not come in front of what starts no placeholder. -/
theorem symbol?_of_plain {sign : String} (is : sign = ":" ∨ sign = "@") {head : Lexeme}
    {tail : List Lexeme} (plain : head.token.startsPlaceholder = false) :
    symbol? sign (head :: tail) = .ok (false, head :: tail) := by
  have other : (head.token == .symbol sign) = false := by
    rw [beq_eq_false_iff_ne]
    intro same
    rw [same] at plain
    rcases is with rfl | rfl <;> cases plain
  rw [symbol?, takeIf_cons, other]
  rfl

/-- A value that no placeholder starts is a single token. -/
theorem value_of_plain {expr : Expr} (plain : placeholderComes before = false)
    (taken : value before = .ok (expr, after)) :
    ∃ head, before = head :: after ∧ head.token.startsPlaceholder = false := by
  cases before with
  | nil => cases taken
  | cons head tail =>
    replace plain : head.token.startsPlaceholder = false := by simpa [placeholderComes] using plain
    obtain ⟨colon, mid, taken₁, taken₂⟩ := bind_eq_ok.mp taken
    rw [symbol?_of_plain (.inl rfl) plain] at taken₁
    cases taken₁
    obtain ⟨sign, mid, taken₃, taken₄⟩ := bind_eq_ok.mp taken₂
    rw [symbol?_of_plain (.inr rfl) plain] at taken₃
    cases taken₃
    obtain ⟨_, is, -⟩ := takeAs_eq_ok (if_neg Bool.false_ne_true ▸ taken₄)
    cases is
    exact ⟨head, rfl, plain⟩

/-- A format in front of the end of a step: where no value of it is a placeholder, none is lost. -/
theorem Keeps.format {α : Type} {held : List String} {done : Parse α} {kept : α → List String}
    (without : Keeps held done kept) :
    Keeps held (do
      if ← keyword? "FORMAT" then do
        let _ ← value
        if ← keywords? ["AT", "TIME", "ZONE"] then do
          let _ ← value
      done) kept := by
  intro before a after taken lossless
  obtain ⟨comes, mid, taken₁, taken₂⟩ := bind_eq_ok.mp taken
  rcases keyword?_eq_ok taken₁ with ⟨rfl, rfl⟩ | ⟨rfl, head, rfl, is⟩
  · exact without _ a after taken₂ lossless
  · have clear := lossless.head
    simp only [opensLoss, is, Bool.or_eq_false_iff] at clear
    obtain ⟨plain, zone_plain⟩ := clear
    obtain ⟨_, rest, taken₃, taken₄⟩ := bind_eq_ok.mp taken₂
    obtain ⟨first, rfl, first_plain⟩ := value_of_plain plain taken₃
    obtain ⟨zoned, mid, taken₅, taken₆⟩ := bind_eq_ok.mp taken₄
    rw [written_cons_of_plain (Token.plain_of_keyword (is ▸ by decide)),
      written_cons_of_plain first_plain]
    rcases keywords?_eq_ok taken₅ with ⟨rfl, rfl⟩ | ⟨rfl, opens, rfl⟩
    · exact without _ a after taken₆ lossless.tail.tail
    · rw [List.tail_cons, opens, Bool.true_and] at zone_plain
      obtain ⟨_, last, taken₇, taken₈⟩ := bind_eq_ok.mp taken₆
      obtain ⟨second, split, second_plain⟩ := value_of_plain zone_plain taken₇
      have left : Lossless (rest.drop 3) := lossless.tail.tail.suffix (List.drop_suffix 3 rest)
      have passed : written (rest.drop 3) = written rest := written_of_opensWith (by decide) opens
      rw [split] at left passed
      rw [← passed, written_cons_of_plain second_plain]
      exact without _ a after taken₈ left.tail

variable {grammar : Grammar} (inner : grammar.Keeps)
include inner

/-! ### Calls -/

theorem orderTerm_keeps :
    Keeps [] (orderTerm grammar) fun term => (orderedBy term).placeholders := by
  refine inner.expression.bind fun expr => ?_
  refine (oneOf?_passes (by decide)).bind fun _ => ?_
  refine (keywords?_passes (by decide)).bind fun _ => .ite (.pure (by simp [orderedBy])) ?_
  exact (keywords?_passes (by decide)).bind fun _ =>
    .ite (.pure (by simp [orderedBy])) (.pure (by simp [orderedBy]))

theorem orderExpressions_keeps : Keeps [] (orderExpressions grammar) Expr.placeholdersOf :=
  (orderTerm_keeps inner).commaList.thread fun terms => .done (by
    rw [Expr.placeholdersOf_eq, List.flatMap_map])

omit inner in
theorem pathRest_passes (fuel : Nat) : Passes (pathRest fuel) := by
  induction fuel with
  | zero => exact .fails
  | succ fuel ih =>
    refine (symbol?_passes (by decide)).bind fun _ => .ite ?_ (.done rfl)
    exact name_passes.bind fun _ => ih.bind fun _ => .done rfl

omit inner in
theorem wildcardRest_passes (fuel : Nat) : Passes (wildcardOr.wildcardRest fuel) := by
  induction fuel with
  | zero => exact .fails
  | succ fuel ih =>
    refine (symbol_passes (by decide)).bind fun _ => ?_
    refine (symbol?_passes (by decide)).bind fun _ => .ite (.done rfl) ?_
    exact name_passes.bind fun _ => ih.bind fun _ => .done rfl

theorem wildcardOr_keeps : Keeps [] (wildcardOr grammar) Expr.placeholders := by
  refine .orElse ?_ (.orElse ?_ inner.expression)
  · exact (symbol_passes (by decide)).bind fun _ => .done rfl
  · exact name_passes.bind fun _ => get_passes.bind fun _ =>
      (wildcardRest_passes _).bind fun _ => .done rfl

theorem argument_keeps : Keeps [] (argument grammar) Expr.placeholders := by
  refine (symbolAt_passes _ _).bind fun _ => .ite ?_ (wildcardOr_keeps inner)
  refine name_passes.bind fun _ => ?_
  exact (symbol_passes (by decide)).bind fun _ => wildcardOr_keeps inner

theorem overflow?_keeps : Keeps [] (overflow? grammar) Expr.placeholdersOf := by
  refine (keywords?_passes (by decide)).bind fun _ => .ite ?_ (.done rfl)
  refine (keyword?_passes (by decide)).bind fun _ => .ite (.done rfl) ?_
  refine (keyword_passes (by decide)).bind fun _ => ?_
  refine peek?_passes.bind fun coming => ?_
  -- What all branches go on with has a name, so that it is proved once and in front of them.
  extract_lets counted
  have counted_keeps : ∀ filler, Keeps (Expr.placeholdersOf filler) (counted filler)
      Expr.placeholdersOf := by
    intro filler
    refine (oneOf_passes (by decide)).bind fun _ => ?_
    exact (keyword_passes (by decide)).bind fun _ => .done rfl
  split
  iterate 4
    · exact inner.expression.bind fun expr => (counted_keeps [expr]).of_held (by simp)
  · exact counted_keeps []

theorem arguments_keeps : Keeps [] (arguments grammar) fun given =>
    Expr.placeholdersOf given.arguments ++ Expr.placeholdersOf given.clauses := by
  refine (symbol?_passes (by decide)).bind fun _ => .ite (.done rfl) ?_
  refine (keyword?_passes (by decide)).bind fun _ => ?_
  refine (keyword?_passes (by decide)).bind fun _ => ?_
  refine .ite .refused ?_
  refine (argument_keeps inner).expressions.bind fun given => ?_
  refine ((orderExpressions_keeps inner).listAfter (by decide) rfl).bind fun order => ?_
  refine (inner.clause (by decide)).bind fun limit => ?_
  refine (overflow?_keeps inner).bind fun overflow => ?_
  exact (symbol_passes (by decide)).bind fun _ => .pure (by simp)

/-! ### Windows -/

theorem frameBound_keeps : Keeps [] (frameBound grammar) Expr.placeholdersOf := by
  refine (keywords?_passes (by decide)).bind fun _ => .ite (.done rfl) ?_
  refine (keyword?_passes (by decide)).bind fun _ => ?_
  extract_lets directed
  have directed_keeps : ∀ rows, Keeps (Expr.placeholdersOf rows) (directed rows)
      Expr.placeholdersOf := fun rows =>
    (oneOf_passes (by decide)).bind fun _ => .done rfl
  refine .ite (directed_keeps []) ?_
  exact inner.expression.bind fun expr => (directed_keeps [expr]).of_held (by simp)

theorem windowFrame_keeps : Keeps [] (windowFrame grammar) Expr.placeholdersOf := by
  refine (oneOf_passes (by decide)).bind fun _ => ?_
  refine (keyword?_passes (by decide)).bind fun _ => .ite ?_ (frameBound_keeps inner)
  refine (frameBound_keeps inner).bind fun start => ?_
  refine (keyword_passes (by decide)).bind fun _ => ?_
  exact (frameBound_keeps inner).bind fun finish => .pure (by simp)

theorem windowRest_keeps : Keeps [] (windowRest grammar) Expr.placeholdersOf := by
  intro before
  refine .peek ?_
  extract_lets parted
  have parted_keeps : Keeps [] (parted ()) Expr.placeholdersOf := by
    refine (inner.expressions.listAfter (by decide) rfl).bind fun partition => ?_
    refine ((orderExpressions_keeps inner).listAfter (by decide) rfl).bind fun order => ?_
    refine (symbol?_passes (by decide)).bind fun _ => .ite (.pure (by simp)) ?_
    refine (windowFrame_keeps inner).bind fun frame => ?_
    exact (symbol_passes (by decide)).bind fun _ => .pure (by simp)
  split
  · rename_i here
    refine .ite (fun _ => ?_) (parted_keeps before)
    exact (take_passes_at here rfl).thread fun _ => parted_keeps
  · exact parted_keeps before

/-- The window after a call, or the name of one. -/
theorem over_keeps : Keeps [] (after? "OVER" (do
    if ← symbol? "(" then windowRest grammar
    else do
      let _ ← name
      return [])) fun window => Expr.placeholdersOf (window.getD []) := by
  refine (Keeps.after? (by decide) ((symbol?_passes (by decide)).bind fun _ =>
    .ite (windowRest_keeps inner) (name_passes.bind fun _ => .done rfl))).congr fun window => ?_
  cases window <;> simp

/-- A call keeps those of its arguments, of its filter, of its window and of what it is ordered by.
-/
theorem call_keeps (function : List Name) (index : Nat) :
    Keeps [] (call grammar function index) Expr.placeholders := by
  refine (symbol_passes (by decide)).bind fun _ => ?_
  refine (arguments_keeps inner).bind fun given => ?_
  refine (Keeps.listAfter (by decide) rfl (.bracketed ((keywords_passes (by decide)).bind fun _ =>
    orderExpressions_keeps inner))).bind fun within => ?_
  have filter_keeps : Keeps [] (do
      keyword "WHERE"
      grammar.expression) Expr.placeholders :=
    (keyword_passes (by decide)).bind fun _ => inner.expression
  refine (filter_keeps.bracketed.clause (by decide)).bind fun filter => ?_
  refine (oneOf?_passes (by decide)).bind fun _ => ?_
  extract_lets windowed
  have windowed_keeps : Keeps (Expr.placeholdersOf given.arguments ++
      Expr.placeholdersOf given.clauses ++ Expr.placeholdersOf within ++
      Expr.placeholdersIn filter) (windowed ()) Expr.placeholders :=
    (over_keeps inner).bind fun window => .pure fun name => by
      simp
      tauto
  exact .ite ((keyword_passes (by decide)).bind fun _ => windowed_keeps.of_held (by simp))
    (windowed_keeps.of_held (by simp))

theorem named_keeps (head : Name) (index : Nat) :
    Keeps [] (named grammar head index) Expr.placeholders := by
  refine get_passes.bind fun _ => ?_
  refine (pathRest_passes _).bind fun path => ?_
  refine (symbolAt_passes _ _).bind fun _ => .ite (call_keeps inner _ index) ?_
  refine peek?_passes.bind fun coming => ?_
  split
  iterate 3
    · exact .ite (value_keeps.bind fun introduced => .pure (by simp)) (.done rfl)
  · exact .done rfl

/-! ### Forms of their own -/

omit inner in
theorem dateField_passes : Passes dateField := (oneOf_passes (by decide)).bind fun _ => .done rfl

theorem choiceFrom_keeps (fuel : Nat) : Keeps [] (choiceFrom grammar fuel) fun pairs =>
    Expr.placeholdersOf (pairs.map (·.1)) ++ Expr.placeholdersOf (pairs.map (·.2)) := by
  induction fuel with
  | zero => exact .fails
  | succ fuel ih =>
    refine inner.expression.bind fun condition => ?_
    refine (keyword_passes (by decide)).bind fun _ => ?_
    refine inner.expression.bind fun result => ?_
    refine (keyword?_passes (by decide)).bind fun _ => .ite ?_ (.pure (by simp))
    refine ih.bind fun pairs => .pure fun name => ?_
    simp
    tauto

/-- A choice keeps all of them, though its tree lists conditions in front of results. -/
theorem choice_keeps : Keeps [] (choice grammar) Expr.placeholders := by
  refine (keyword?_passes (by decide)).bind fun _ => ?_
  extract_lets chosen
  have chosen_keeps : ∀ operand, Keeps (Expr.placeholdersIn operand) (chosen operand)
      Expr.placeholders := by
    intro operand
    refine get_passes.bind fun _ => ?_
    refine (choiceFrom_keeps inner _).bind fun pairs => ?_
    refine (inner.clause (by decide)).bind fun otherwise => ?_
    exact (keyword_passes (by decide)).bind fun _ => .pure (by simp)
  refine .ite (chosen_keeps none) ?_
  refine inner.expression.bind fun operand => ?_
  exact (keyword_passes (by decide)).bind fun _ => chosen_keeps (some operand)

/-- The type of a cast has none, and its format is taken without a loss. -/
theorem cast_keeps : Keeps [] (cast grammar) Expr.placeholders := by
  refine .bracketed (inner.expression.bind fun operand => ?_)
  refine (keyword_passes (by decide)).bind fun _ => ?_
  refine typeName_passes.bind fun _ => ?_
  exact .format (.done rfl)

theorem conversion_keeps : Keeps [] (conversion grammar) Expr.placeholders := by
  refine .bracketed (inner.expression.bind fun operand => ?_)
  refine (keyword?_passes (by decide)).bind fun _ => .ite ?_ ?_
  · exact path_passes.bind fun _ => .pure (by simp)
  · refine (symbol_passes (by decide)).bind fun _ => ?_
    refine typeName_passes.bind fun _ => ?_
    refine (keywords?_passes (by decide)).bind fun _ => .ite ?_ (.pure (by simp))
    exact path_passes.bind fun _ => .pure (by simp)

theorem extraction_keeps : Keeps [] (extraction grammar) Expr.placeholders := by
  refine .bracketed (dateField_passes.bind fun _ => ?_)
  refine (keyword_passes (by decide)).bind fun _ => ?_
  exact inner.expression.bind fun whole => .pure (by simp)

theorem rounding_keeps (word : Name) (index : Nat) :
    Keeps [] (rounding grammar word index) Expr.placeholders := by
  refine .bracketed (inner.expression.bind fun operand => ?_)
  refine (keyword?_passes (by decide)).bind fun _ => .ite ?_ (.pure (by simp [plainCall]))
  exact dateField_passes.bind fun _ => .pure (by simp)

theorem position_keeps (word : Name) (index : Nat) :
    Keeps [] (position grammar word index) Expr.placeholders := by
  refine .orElse (.bracketed ((inner.tighter _).bind fun wanted => ?_)) (call_keeps inner _ _)
  refine (keyword_passes (by decide)).bind fun _ => ?_
  exact inner.expression.bind fun whole => .pure (by simp)

theorem substring_keeps (word : Name) (index : Nat) :
    Keeps [] (substring grammar word index) Expr.placeholders := by
  refine .bracketed (inner.expression.bind fun whole => ?_)
  refine (symbol?_passes (by decide)).bind fun special => ?_
  extract_lets started
  have started_keeps : ∀ start, Keeps (whole.placeholders ++ Expr.placeholdersIn start)
      (started start) Expr.placeholders := by
    intro start
    refine .ite ((symbol?_passes (by decide)).bind fun _ => .ite ?_ ?_) (.given (.ite ?_ ?_))
    · exact inner.optional.bind fun count => .pure (by simp [plainCall])
    · exact (inner.clause (by decide)).bind fun count => .pure (by simp [plainCall])
    · exact inner.optional.bind fun count => .pure (by simp [plainCall])
    · exact (inner.clause (by decide)).bind fun count => .pure (by simp [plainCall])
  refine .ite ?_ ?_
  · exact inner.optional.bind started_keeps
  · exact (inner.clause (by decide)).bind started_keeps

theorem overlay_keeps : Keeps [] (overlay grammar) Expr.placeholders := by
  refine .bracketed (inner.expression.bind fun whole => ?_)
  refine (keyword_passes (by decide)).bind fun _ => ?_
  refine inner.expression.bind fun part => ?_
  refine (keyword_passes (by decide)).bind fun _ => ?_
  refine inner.expression.bind fun start => ?_
  exact (inner.clause (by decide)).bind fun count => .pure (by simp)

theorem trimming_keeps (word : Name) (index : Nat) :
    Keeps [] (trimming grammar word index) Expr.placeholders := by
  refine .bracketed ((oneOf?_passes (by decide)).bind fun side => ?_)
  refine inner.expression.bind fun first => ?_
  refine (keyword?_passes (by decide)).bind fun _ => .ite ?_ ?_
  · refine inner.expression.bind fun whole => .pure fun name => ?_
    simp
    tauto
  · exact .ite (.pure (by simp)) (.pure (by simp [plainCall]))

theorem interval_keeps : Keeps [] (interval grammar) Expr.placeholders := by
  refine (inner.tighter _).bind fun amount => ?_
  refine (oneOf?_passes (by decide)).bind fun field => ?_
  extract_lets measured
  have measured_keeps : ∀ u, Keeps amount.placeholders (measured u) Expr.placeholders :=
    fun _ => .pure (by simp)
  split
  · exact scale?_passes.bind measured_keeps
  · refine precision?_passes.bind fun _ => ?_
    refine (keyword?_passes (by decide)).bind fun _ => .ite ?_ (measured_keeps ())
    refine (keyword?_passes (by decide)).bind fun _ => .ite ?_ ?_
    · exact precision?_passes.bind measured_keeps
    · exact dateField_passes.bind measured_keeps

theorem typedText_keeps : Keeps [] (typedText grammar) Expr.placeholders := by
  intro before
  refine .keywordAt ?_
  refine .ite (fun is => ?_) ?_
  · exact (take_passes_word (beq_iff_eq.mp is) (by decide)).thread fun _ => interval_keeps inner
  · refine (typeName_passes before).thread fun named => ?_
    refine .ite ?_ .refused
    exact textLiteral_passes.bind fun _ => .done rfl

theorem subquery_keeps : Keeps [] (subquery grammar) Query.placeholders := inner.query.bracketed

theorem negation_keeps : Keeps [] (negation grammar) Expr.placeholders := by
  refine (keyword?_passes (by decide)).bind fun _ => .ite ?_ ?_
  · exact (subquery_keeps inner).bind fun query => .pure (by simp)
  · exact (inner.tighter _).bind fun operand => .pure (by simp)

/-- A bracket holds a query, a single expression or a row of them. -/
theorem bracketRest_keeps : Keeps [] (bracketRest grammar) Expr.placeholders := by
  refine (keywordAt_passes _).bind fun word => ?_
  extract_lets closed
  have closed_keeps : ∀ whole, Keeps whole.placeholders (closed whole) Expr.placeholders := by
    intro whole
    refine (symbol_passes (by decide)).bind fun _ => ?_
    refine (symbol?_passes (by decide)).bind fun _ => .ite ?_ (.done rfl)
    refine .take .fails fun lexeme => ?_
    rcases lexeme with ⟨token, gap, source, index⟩
    cases token with
    | word name => exact .inl ⟨rfl, .pure (by simp)⟩
    | _ => exact .inr (.inl rfl)
  refine .ite ?_ ?_
  · refine Keeps.thread (inner.query.thread fun query => .pure ?_) closed_keeps
    simp
  · refine inner.expressions.bind fun items => ?_
    split
    · exact (closed_keeps _).of_held (by simp)
    · exact (closed_keeps _).of_held (by simp)

theorem timeFunction_keeps (word : Name) (index : Nat) :
    Keeps [] (worded.timeFunction grammar word index) Expr.placeholders := by
  refine (symbol?_passes (by decide)).bind fun _ => .ite ?_ (.done rfl)
  exact (arguments_keeps inner).bind fun given => .pure (by simp)

theorem worded_keeps (word : Name) (index : Nat) :
    Keeps [] (worded grammar word index) Expr.placeholders := by
  have time := timeFunction_keeps inner word index
  unfold worded
  split
  · exact .done rfl
  · exact .done rfl
  · exact .done rfl
  · exact choice_keeps inner
  · exact cast_keeps inner
  · exact cast_keeps inner
  · exact cast_keeps inner
  · exact conversion_keeps inner
  · exact (subquery_keeps inner).bind fun query => .pure (by simp)
  · exact extraction_keeps inner
  · exact rounding_keeps inner word index
  · exact rounding_keeps inner word index
  · exact (symbolAt_passes _ _).bind fun _ =>
      .ite (position_keeps inner word index) (named_keeps inner word index)
  · exact substring_keeps inner word index
  · exact overlay_keeps inner
  · exact trimming_keeps inner word index
  · exact interval_keeps inner
  · exact negation_keeps inner
  · refine (symbolAt_passes _ _).bind fun _ => .ite ?_ (named_keeps inner word index)
    exact (subquery_keeps inner).bind fun query => .pure (by simp)
  · exact time
  · exact time
  · exact time
  · exact time
  · exact time
  · exact named_keeps inner word index

theorem head_keeps : Keeps [] (head grammar) Expr.placeholders := by
  -- The token may be the sign of a placeholder only where it is put back for `value`.
  refine .take value_keeps fun lexeme => ?_
  split
  · rename_i spelled
    exact .inl ⟨by rw [spelled]; rfl, worded_keeps inner _ _⟩
  · rename_i spelled
    exact .inl ⟨by rw [spelled]; rfl, named_keeps inner _ _⟩
  · rename_i spelled
    exact .inl ⟨by rw [spelled]; rfl, (inner.tighter _).bind fun operand => .pure (by simp)⟩
  · rename_i spelled
    exact .inl ⟨by rw [spelled]; rfl, (inner.tighter _).bind fun operand => .pure (by simp)⟩
  · rename_i spelled
    exact .inl ⟨by rw [spelled]; rfl, bracketRest_keeps inner⟩
  · exact .inr (.inl rfl)
  · exact .inr (.inr fun tail => rfl)

/-- What stands between two operators keeps its placeholders. -/
theorem operand_keeps : Keeps [] (operand grammar) Expr.placeholders := by
  refine Keeps.bind (.orElse (typedText_keeps inner) (head_keeps inner)) fun start => ?_
  refine (keyword?_passes (by decide)).bind fun _ => .ite ?_ (.done rfl)
  exact path_passes.bind fun _ => .pure (by simp)

/-! ### Operators -/

section Operators

variable (left : Expr)

theorem rightSide_keeps (operator : String) (rank : Nat) :
    Keeps left.placeholders (rightSide grammar operator left rank) Expr.placeholders := by
  refine (oneOf?_passes (by decide)).bind fun quantifier => ?_
  cases quantifier with
  | none => exact (inner.tighter _).bind fun right => .pure (by simp)
  | some quantifier =>
    refine (symbolAt_passes _ _).bind fun _ => (keywordAt_passes _).bind fun _ => ?_
    extract_lets isQuery compared
    have compared_keeps : ∀ right, Keeps (left.placeholders ++ right.placeholders)
        (compared right) Expr.placeholders := fun right => .ite (.pure (by simp)) .refused
    refine .ite ?_ ?_
    · exact (inner.tighter _).bind compared_keeps
    · exact (inner.tighter _).bracketed.bind compared_keeps

theorem membership_keeps (negated : Bool) :
    Keeps left.placeholders (membership grammar negated left) Expr.placeholders := by
  refine (keyword?_passes (by decide)).bind fun _ => .ite ?_ (.bracketed ?_)
  · exact inner.expression.bracketed.bind fun set => .pure (by simp)
  · refine (keywordAt_passes _).bind fun word => .ite ?_ ?_
    · exact inner.query.bind fun query => .pure (by simp)
    · refine (symbolAt_passes _ _).bind fun _ => .ite (.pure (by simp)) ?_
      exact inner.expressions.bind fun items => .pure (by simp)

theorem bounds_keeps (negated : Bool) :
    Keeps left.placeholders (bounds grammar negated left) Expr.placeholders := by
  refine (inner.tighter _).bind fun low => ?_
  refine (keyword_passes (by decide)).bind fun _ => ?_
  exact (inner.tighter _).bind fun high => .pure (by simp)

theorem pattern_keeps (word : String) (negated : Bool) :
    Keeps left.placeholders (pattern grammar word negated left) Expr.placeholders := by
  refine (inner.tighter _).bind fun right => ?_
  exact (textLiteral_passes.after? (by decide)).bind fun _ => .pure (by simp)

theorem testRest_keeps (negated : Bool) :
    Keeps left.placeholders (testRest grammar negated left) Expr.placeholders := by
  refine (keyword?_passes (by decide)).bind fun _ => .ite ?_ ?_
  · exact (inner.tighter _).bind fun right => .pure (by simp)
  refine (keyword?_passes (by decide)).bind fun _ => .ite ?_ ?_
  · exact (inner.tighter _).bind fun right => .pure (by simp)
  refine (keyword?_passes (by decide)).bind fun _ => .ite (membership_keeps inner left _) ?_
  refine (keyword?_passes (by decide)).bind fun _ => .ite (bounds_keeps inner left _) ?_
  refine (keyword?_passes (by decide)).bind fun _ => .ite (pattern_keeps inner left _ _) ?_
  refine (keyword?_passes (by decide)).bind fun _ => .ite (pattern_keeps inner left _ _) ?_
  exact (keywords_passes (by decide)).bind fun _ => pattern_keeps inner left _ _

/-- So does a test behind an operand. -/
theorem question_keeps :
    Keeps left.placeholders (question grammar left) Expr.placeholders := by
  refine (keyword?_passes (by decide)).bind fun _ => ?_
  refine (oneOf_passes (by decide)).bind fun asked => ?_
  split
  · exact .pure (by simp)
  · exact .pure (by simp)
  · exact .pure (by simp)
  · exact .pure (by simp)
  · refine (keyword_passes (by decide)).bind fun _ => ?_
    exact inner.expression.bind fun right => .pure (by simp)

omit inner in
theorem plain_of_infix : ∀ spelling ∈ infixSymbols,
    (Token.symbol spelling).startsPlaceholder = false := by decide

/-- An operator and its right side go on from the operand, which is held meanwhile. -/
theorem continued_keeps (rank : Nat) :
    Keeps left.placeholders (continued grammar left rank) Expr.placeholders := by
  -- A sign of a placeholder is no operator: it is refused or put back.
  refine .take (testRest_keeps inner left false) fun lexeme => ?_
  split
  · rename_i spelled
    exact .inl ⟨by rw [spelled]; rfl, typeName_passes.bind fun _ => .pure (by simp)⟩
  · rename_i spelled
    exact .inl ⟨by rw [spelled]; rfl, .pure (by simp)⟩
  · rename_i spelling _ _ spelled
    split
    · rename_i among
      refine .inl ⟨?_, rightSide_keeps inner left _ _⟩
      rw [spelled]
      exact plain_of_infix spelling (List.contains_iff_mem.mp among)
    · exact .inr (.inl rfl)
  · split
    iterate 4
      · rename_i worded
        exact .inl ⟨Token.plain_of_keyword (by rw [worded]; decide), rightSide_keeps inner left _ _⟩
    · rename_i worded
      exact .inl ⟨Token.plain_of_keyword (by rw [worded]; decide), question_keeps inner left⟩
    · rename_i worded
      refine .inl ⟨Token.plain_of_keyword (by rw [worded]; decide), ?_⟩
      refine (keywords_passes (by decide)).bind fun _ => ?_
      exact (inner.tighter _).bind fun zone => .pure (by simp)
    · rename_i worded
      exact .inl ⟨Token.plain_of_keyword (by rw [worded]; decide), testRest_keeps inner left true⟩
    · exact .inr (.inl rfl)
    · exact .inr (.inr fun tail => rfl)

end Operators

theorem continuedFrom_keeps (rank : Nat) (left : Expr) (fuel : Nat) :
    Keeps left.placeholders (continuedFrom grammar rank left fuel) Expr.placeholders := by
  induction fuel generalizing left with
  | zero => exact .done rfl
  | succ fuel ih =>
    refine get_passes.bind fun _ => .ite (.done rfl) ?_
    exact (continued_keeps inner left _).thread ih

/-- An expression keeps the placeholders that are written in it. -/
theorem expression_keeps (rank : Nat) : Keeps [] (expression grammar rank) Expr.placeholders :=
  (operand_keeps inner).bind fun left => get_passes.bind fun _ =>
    continuedFrom_keeps inner rank left _

end Parse

end GridReport.Sql
