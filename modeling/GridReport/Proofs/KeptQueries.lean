import GridReport.Proofs.KeptExpressions
import GridReport.Sql.Grammar.Query
import Mathlib.Data.List.TakeWhile

/-!
Queries keep the placeholders that are written in them.

* `selection_keeps`, `source_keeps`, `insertion_keeps` — the bodies of a query and what they read.
* `queryWith_keeps` — a query with its common tables, its order and the part of its rows.
* `ofDepth_keeps` — expressions and queries nested to any depth.
-/

namespace GridReport.Sql

attribute [simp] Query.placeholders Query.placeholdersIn Body.placeholders Source.placeholders
  Source.placeholdersOf Item.placeholdersOf OrderTerm.placeholdersOf CommonTable.placeholdersOf

theorem Source.placeholdersOf_eq (sources : List Source) :
    Source.placeholdersOf sources = sources.flatMap Source.placeholders := by
  induction sources with
  | nil => rfl
  | cons head tail ih => rw [Source.placeholdersOf, ih, List.flatMap_cons]

theorem Item.placeholdersOf_eq (items : List Item) :
    Item.placeholdersOf items = items.flatMap fun item => Item.placeholdersOf [item] := by
  induction items with
  | nil => rfl
  | cons head tail ih => cases head <;> simp_all

theorem OrderTerm.placeholdersOf_eq (terms : List OrderTerm) :
    OrderTerm.placeholdersOf terms =
      terms.flatMap fun term => (Parse.orderedBy term).placeholders := by
  induction terms with
  | nil => rfl
  | cons head tail ih =>
    obtain ⟨expr, descending, nullsFirst⟩ := head
    simp_all [Parse.orderedBy]

theorem CommonTable.placeholdersOf_eq (tables : List CommonTable) :
    CommonTable.placeholdersOf tables =
      tables.flatMap fun table => CommonTable.placeholdersOf [table] := by
  induction tables with
  | nil => rfl
  | cons head tail ih =>
    obtain ⟨name, columns, query⟩ := head
    simp_all

namespace Parse

variable {grammar : Grammar} (inner : grammar.Keeps)
include inner

/-! ### Items and sources -/

theorem item_keeps : Keeps [] (item grammar) fun item => Item.placeholdersOf [item] := by
  refine get_passes.bind fun before => ?_
  refine (wildcardOr_keeps inner).bind fun expr => ?_
  split
  · exact .done rfl
  · exact .done rfl
  · refine get_passes.bind fun after => ?_
    extract_lets written labelled
    have labelled_keeps : Keeps expr.placeholders (labelled ()) fun item =>
        Item.placeholdersOf [item] := (label?_passes _).bind fun label => .pure (by simp)
    split
    · exact .ite .refused labelled_keeps
    · exact labelled_keeps

theorem items_keep : Keeps [] (commaList (item grammar)) Item.placeholdersOf :=
  (item_keeps inner).commaList.congr fun items => by
    rw [Item.placeholdersOf_eq]

theorem distinctness_keeps : Keeps [] (distinctness grammar) fun (_, on) =>
    Expr.placeholdersOf on := by
  refine (keyword?_passes (by decide)).bind fun all => ?_
  refine (keyword?_passes (by decide)).bind fun _ => .ite ?_ (.done rfl)
  refine .ite .refused ?_
  refine (keyword?_passes (by decide)).bind fun _ => .ite (.bracketed ?_) (.done rfl)
  refine (symbolAt_passes _ _).bind fun _ => .ite (.done rfl) ?_
  exact inner.expressions.bind fun on => .pure (by simp)

theorem top_keeps : Keeps [] (top grammar) Expr.placeholdersOf := by
  refine (symbolAt_passes _ _).bind fun _ => ?_
  extract_lets counted
  have counted_keeps : ∀ count, Keeps (Expr.placeholdersOf count) (counted count)
      Expr.placeholdersOf := fun count =>
    (keyword?_passes (by decide)).bind fun _ =>
      (keywords?_passes (by decide)).bind fun _ => .done rfl
  refine .ite ?_ ?_
  · exact inner.expression.bracketed.bind fun count =>
      (counted_keeps [count]).of_held (by simp)
  · exact wholeNumber_passes.bind fun _ => counted_keeps []

/-- The condition of a join is kept; a list of shared columns has no placeholder. -/
theorem joinConstraint_keeps (natural : Bool) :
    Keeps [] (joinConstraint grammar natural) fun (condition, _) =>
      Expr.placeholdersIn condition := by
  refine .ite (.done rfl) ((keyword?_passes (by decide)).bind fun _ => .ite ?_ ?_)
  · exact inner.expression.bind fun condition => .pure (by simp)
  · exact (keyword?_passes (by decide)).bind fun _ =>
      .ite (nameList_passes.bind fun _ => .done rfl) (.done rfl)

omit inner in
theorem joinKind?_passes : Passes joinKind? := by
  refine (keyword?_passes (by decide)).bind fun _ => .ite ?_ ?_
  · exact (oneOf_passes (by decide)).bind fun _ => .done rfl
  refine (keyword?_passes (by decide)).bind fun _ => .ite ?_ ?_
  · exact (keyword_passes (by decide)).bind fun _ => .done rfl
  refine (keyword?_passes (by decide)).bind fun natural => ?_
  extract_lets plain
  refine (oneOf?_passes (by decide)).bind fun side => ?_
  split
  · exact .done rfl
  · exact (keyword_passes (by decide)).bind fun _ => .done rfl
  · refine (keyword?_passes (by decide)).bind fun _ => ?_
    exact (keyword_passes (by decide)).bind fun _ => .done rfl
  · refine (oneOf_passes (by decide)).bind fun _ => ?_
    split
    · exact .done rfl
    · exact (keyword_passes (by decide)).bind fun _ => .done rfl
    · exact (keyword_passes (by decide)).bind fun _ => .done rfl
  · exact .ite .fails (.done rfl)

theorem sourceArguments_keeps : Keeps [] (sourceArguments grammar) Expr.placeholdersOf :=
  .bracketed ((symbolAt_passes _ _).bind fun _ =>
    .ite (.done rfl) (argument_keeps inner).expressions)

/-- A table has none but in the arguments of a call and in its options. -/
theorem namedSource_keeps : Keeps [] (namedSource grammar) Source.placeholders := by
  refine path_passes.bind fun place => ?_
  refine (symbolAt_passes _ _).bind fun _ => ?_
  extract_lets given
  have given_keeps : ∀ arguments, Keeps (Expr.placeholdersOf arguments) (given arguments)
      Source.placeholders := by
    intro arguments
    refine (keywords?_passes (by decide)).bind fun _ => ?_
    refine sourceAlias?_passes.bind fun _ => ?_
    refine (keywordAt_passes _).bind fun _ => (symbolAt_passes _ _).bind fun _ => .ite ?_ ?_
    · refine (keyword_passes (by decide)).bind fun _ => ?_
      exact inner.expressions.bracketed.bind fun hints => .pure (by simp)
    · exact .given (.pure (by simp))
  exact .ite ((sourceArguments_keeps inner).bind given_keeps) (given_keeps [])

theorem derivedRest_keeps : Keeps [] (derivedRest grammar) Source.placeholders := by
  refine inner.query.bind fun query => ?_
  refine (symbol_passes (by decide)).bind fun _ => ?_
  exact sourceAlias?_passes.bind fun _ => .pure (by simp)

/-- The sources joined so far are held while the next one is taken. -/
theorem joinsFrom_keeps {factor : Parse Source} (own : Keeps [] factor Source.placeholders)
    (left : Source) (fuel : Nat) :
    Keeps left.placeholders (joinsFrom grammar factor left fuel) Source.placeholders := by
  induction fuel generalizing left with
  | zero => exact .done rfl
  | succ fuel ih =>
    refine (keyword?_passes (by decide)).bind fun _ => ?_
    refine joinKind?_passes.bind fun kind => ?_
    split
    · exact .done rfl
    · refine own.bind fun right => ?_
      refine .ite ?_ (.given ?_)
      · refine (joinConstraint_keeps inner false).bind fun (condition, shared) => ?_
        exact (ih _).of_held (by simp)
      · exact (ih _).of_held (by simp)

theorem joinedWith_keeps {factor : Parse Source} (own : Keeps [] factor Source.placeholders) :
    Keeps [] (joinedWith grammar factor) Source.placeholders :=
  own.bind fun left => get_passes.bind fun _ => joinsFrom_keeps inner own left _

theorem factorFrom_keeps (fuel : Nat) :
    Keeps [] (factorFrom grammar fuel) Source.placeholders := by
  induction fuel with
  | zero => exact .fails
  | succ fuel ih =>
    refine (keyword?_passes (by decide)).bind fun _ => .ite ?lateral ?_
    case lateral =>
      refine (symbol?_passes (by decide)).bind fun _ => .ite (derivedRest_keeps inner) ?_
      refine path_passes.bind fun _ => ?_
      refine (sourceArguments_keeps inner).bind fun given => ?_
      exact sourceAlias?_passes.bind fun _ => .pure (by simp)
    refine (keyword?_passes (by decide)).bind fun _ => .ite ?table ?_
    case table =>
      refine inner.expression.bracketed.bind fun rows => ?_
      exact sourceAlias?_passes.bind fun _ => .pure (by simp)
    refine (symbol?_passes (by decide)).bind fun _ => .ite ?bracket (namedSource_keeps inner)
    case bracket =>
      refine (derivedRest_keeps inner).attempt.bind fun derived => ?_
      cases derived with
      | some source => exact .done rfl
      | none =>
        refine (joinedWith_keeps inner ih).bind fun joined => .ite ?_ .refused
        refine (symbol_passes (by decide)).bind fun _ => ?_
        exact sourceAlias?_passes.bind fun _ => .pure (by simp)

/-- A source keeps its placeholders, with all that is joined to it. -/
theorem source_keeps : Keeps [] (source grammar) Source.placeholders :=
  joinedWith_keeps inner (get_passes.bind fun _ => factorFrom_keeps inner _)

theorem sources_keep : Keeps [] (commaList (source grammar)) Source.placeholdersOf :=
  (source_keeps inner).commaList.congr fun sources => by
    rw [Source.placeholdersOf_eq]

/-! ### Selections -/

theorem lateralViews_keep : Keeps [] (many (lateralView? grammar)) Expr.placeholdersOf := by
  have one : Keeps [] (lateralView? grammar) fun view => (view.map Expr.placeholders).getD [] := by
    refine (keywords?_passes (by decide)).bind fun _ => .ite ?_ (.done rfl)
    refine (keyword?_passes (by decide)).bind fun _ => ?_
    refine inner.expression.bind fun view => ?_
    refine path_passes.bind fun _ => ?_
    exact (label?_passes _).commaList.bind fun _ => .pure (by simp)
  exact one.many.congr fun views => by
    rw [Expr.placeholdersOf_eq]

theorem namedWindows_keep :
    Keeps [] (List.flatten <$> commaList (namedWindow grammar)) Expr.placeholdersOf := by
  have one : Keeps [] (namedWindow grammar) Expr.placeholdersOf := by
    refine name_passes.bind fun _ => ?_
    refine (keyword_passes (by decide)).bind fun _ => ?_
    exact (symbol_passes (by decide)).bind fun _ => windowRest_keeps inner
  refine one.commaList.thread fun windows => .done ?_
  rw [Expr.placeholdersOf_flatten]

theorem windows_keep : Keeps [] (windows grammar) Expr.placeholdersOf := by
  refine ((namedWindows_keep inner).listAfter (by decide) rfl).bind fun names => ?_
  refine (inner.clause (by decide)).bind fun condition => .ite ?_ (.given (.pure (by simp)))
  refine ((namedWindows_keep inner).listAfter (by decide) rfl).bind fun later => .pure ?_
  intro name
  simp
  tauto

omit inner in
theorem target?_passes : Passes target? := by
  refine (keyword?_passes (by decide)).bind fun _ => .ite ?_ (.done rfl)
  refine (oneOf?_passes (by decide)).bind fun _ => ?_
  refine (keyword?_passes (by decide)).bind fun _ => ?_
  refine (keyword?_passes (by decide)).bind fun _ => ?_
  exact path_passes.bind fun _ => .done rfl

theorem grouping_keeps : Keeps [] (listAfter ["GROUP", "BY"] (do
    if ← keyword? "ALL" then return [] else grammar.expressions)) Expr.placeholdersOf :=
  .listAfter (by decide) rfl ((keyword?_passes (by decide)).bind fun _ =>
    .ite (.done rfl) inner.expressions)

/-- The clauses of a selection keep theirs one after another, in the order of its tree. -/
theorem selection_keeps : Keeps [] (selection grammar) Body.placeholders := by
  refine (distinctness_keeps inner).bind fun (isDistinct, on) => ?_
  refine (keyword?_passes (by decide)).bind fun _ => ?_
  extract_lets counted
  have counted_keeps : ∀ count, Keeps (Expr.placeholdersOf on ++ Expr.placeholdersOf count)
      (counted count) Body.placeholders := by
    intro count
    refine (items_keep inner).bind fun items => ?_
    refine target?_passes.bind fun _ => ?_
    refine ((sources_keep inner).listAfter (by decide) rfl).bind fun sources => ?_
    refine (lateralViews_keep inner).bind fun views => ?_
    refine (inner.clause (by decide)).bind fun condition => ?_
    refine (grouping_keeps inner).bind fun grouping => ?_
    refine (inner.expressions.listAfter (by decide) rfl).bind fun cluster => ?_
    refine (inner.expressions.listAfter (by decide) rfl).bind fun distribution => ?_
    refine (inner.expressions.listAfter (by decide) rfl).bind fun sorting => ?_
    refine (inner.clause (by decide)).bind fun having => ?_
    exact (windows_keep inner).bind fun shown => .pure (by simp)
  refine .ite ((top_keeps inner).bind counted_keeps) ?_
  exact (counted_keeps []).of_held (by simp)

theorem rows_keep : Keeps [] (rows grammar) Body.placeholders := by
  refine Keeps.bind (Keeps.expressions ?_) fun rows => .pure (by simp)
  exact (keyword?_passes (by decide)).bind fun _ =>
    inner.expressions.bracketed.bind fun row => .pure (by simp)

/-! ### Bodies -/

omit inner in
theorem setOperator_passes (operator : SetOperator) : Passes (setOperator operator) := by
  have plain : Passes (do
      if ← keyword? "ALL" then return true
      else do
        let _ ← keyword? "DISTINCT"
        return false) :=
    (keyword?_passes (by decide)).bind fun _ => .ite (.done rfl) <|
      (keyword?_passes (by decide)).bind fun _ => .done rfl
  cases operator with
  | union =>
    refine (keywords?_passes (by decide)).bind fun _ => .ite (.done rfl) ?_
    refine (keywords?_passes (by decide)).bind fun _ => .ite (.done rfl) ?_
    refine (keyword?_passes (by decide)).bind fun _ => .ite ?_ ?_
    · exact (keywords?_passes (by decide)).bind fun _ => .done rfl
    · exact (keyword?_passes (by decide)).bind fun _ => .done rfl
  | except => exact plain
  | intersect => exact plain

omit inner in
/-- A table as a body is three tokens, with a schema or without. -/
theorem tableRest_eq_ok {before after : List Lexeme} {body : Body}
    (taken : tableRest before = .ok (body, after)) :
    after = before.drop 3 ∧ body.placeholders = [] := by
  obtain ⟨_, _, got, taken⟩ := bind_eq_ok.mp taken
  cases got
  split at taken
  all_goals cases taken
  · exact ⟨rfl, Body.placeholders.eq_def _⟩
  · exact ⟨rfl, Body.placeholders.eq_def _⟩

omit inner in
/-- A table as a body keeps placeholders where none stands next to its name. -/
theorem table_keeps : Keeps [] (do keyword "TABLE"; tableRest) Body.placeholders := by
  intro before body after taken lossless
  obtain ⟨_, mid, taken₁, taken₂⟩ := bind_eq_ok.mp taken
  obtain ⟨head, rfl, is⟩ := keyword_eq_ok taken₁
  obtain ⟨rfl, none⟩ := tableRest_eq_ok taken₂
  have plain := lossless.head
  simp only [opensLoss, is, List.any_eq_false, Bool.not_eq_true] at plain
  rw [none, written_cons_of_plain (Token.plain_of_keyword (is ▸ by decide)), written_drop plain]
  exact ⟨lossless.tail.suffix (List.drop_suffix _ _), fun _ => Iff.rfl⟩

/-- A body without a set operator is a selection, a query in brackets, rows or a table. -/
theorem bodyPart_keeps : Keeps [] (bodyPart grammar) Body.placeholders := by
  have bracket : Passes (bodyPart.bracket? grammar) :=
    .ite (symbol?_passes (by decide)) (.done rfl)
  refine (keyword?_passes (by decide)).bind fun _ => .ite (selection_keeps inner) ?_
  refine bracket.bind fun _ => .ite ?_ ?_
  · refine inner.query.bind fun query => ?_
    exact (symbol_passes (by decide)).bind fun _ => .pure (by simp)
  · refine (keyword?_passes (by decide)).bind fun _ => .ite (rows_keep inner) ?_
    exact table_keeps

omit inner in
theorem named_of_setOperator? {dialect : Dialect} {word : String} {found : SetOperator × Nat}
    (is : setOperator? dialect word = some found) : word ≠ "" := by
  rintro rfl
  cases is

omit inner in
/-- The bodies put together so far are held while the next one is taken. -/
theorem combinedFrom_keeps {dialect : Dialect} {part : Nat → Parse Body}
    (own : ∀ rank, Keeps [] (part rank) Body.placeholders) (rank : Nat) (left : Body)
    (fuel : Nat) :
    Keeps left.placeholders (combinedFrom dialect part rank left fuel) Body.placeholders := by
  induction fuel generalizing left with
  | zero => exact .done rfl
  | succ fuel ih =>
    intro before
    refine .keywordAt ?_
    split
    · exact Keeps.done rfl before
    · rename_i operator next is
      refine .ite (fun _ => Keeps.done rfl before) ?_
      refine (take_passes_word rfl (named_of_setOperator? is)).bind fun _ => ?_
      refine (setOperator_passes operator).bind fun all => ?_
      exact (own next).bind fun right => (ih _).of_held (by simp)

theorem bodyFrom_keeps (depth rank : Nat) :
    Keeps [] (bodyFrom grammar depth rank) Body.placeholders := by
  induction depth generalizing rank with
  | zero => exact bodyPart_keeps inner
  | succ depth ih =>
    refine (bodyPart_keeps inner).bind fun left => get_passes.bind fun _ => ?_
    exact combinedFrom_keeps ih rank left _

/-- Common tables keep the placeholders of their queries. -/
theorem commonTables_keep :
    Keeps [] (commaList (commonTable grammar)) CommonTable.placeholdersOf := by
  have one : Keeps [] (commonTable grammar) fun table => CommonTable.placeholdersOf [table] := by
    refine name_passes.bind fun word => ?_
    refine (keyword?_passes (by decide)).bind fun _ => ?_
    extract_lets listed
    have listed_keeps : ∀ columns, Keeps [] (listed columns) fun table =>
        CommonTable.placeholdersOf [table] := by
      intro columns
      refine inner.query.bracketed.bind fun query => ?_
      refine (keyword?_passes (by decide)).bind fun _ => .ite ?_ (.pure (by simp))
      exact name_passes.bind fun _ => .pure (by simp)
    refine .ite (listed_keeps []) ?_
    refine nameList?_passes.bind fun columns => ?_
    exact (keyword_passes (by decide)).bind fun _ => listed_keeps columns
  exact one.commaList.congr fun tables => by
    rw [CommonTable.placeholdersOf_eq]

omit inner in
theorem fetchRest_keeps : Keeps [] fetchRest Expr.placeholdersIn := by
  refine (oneOf_passes (by decide)).bind fun _ => ?_
  refine (oneOf?_passes (by decide)).bind fun _ => ?_
  extract_lets ended
  have ended_keeps : ∀ count, Keeps (Expr.placeholdersIn count) (ended count)
      Expr.placeholdersIn := by
    intro count
    refine (keyword?_passes (by decide)).bind fun _ => .ite (.done rfl) ?_
    exact (keywords_passes (by decide)).bind fun _ => .done rfl
  refine .ite (ended_keeps none) ?_
  refine value_keeps.bind fun count => ?_
  refine (keyword?_passes (by decide)).bind fun _ => ?_
  exact (oneOf_passes (by decide)).bind fun _ => ended_keeps (some count)

omit inner in
theorem lock?_passes : Passes lock? := by
  refine (keyword?_passes (by decide)).bind fun _ => .ite ?_ (.done rfl)
  refine (keyword?_passes (by decide)).bind fun _ => .ite (.done rfl) ?_
  refine (oneOf_passes (by decide)).bind fun _ => ?_
  refine (keyword?_passes (by decide)).bind fun _ => ?_
  extract_lets finished locked
  have locked_passes : Passes (locked ()) := by
    refine (keyword?_passes (by decide)).bind fun _ => .ite (.done rfl) ?_
    refine (keyword?_passes (by decide)).bind fun _ => .ite ?_ (.done rfl)
    exact (keyword_passes (by decide)).bind fun _ => .done rfl
  exact .ite (path_passes.bind fun _ => locked_passes) locked_passes

/-- The placeholders of a limit and an offset. -/
def Part.placeholders (given : Part) : List String :=
  Expr.placeholdersIn given.limit ++ Expr.placeholdersIn given.offset

/-- A limit and an offset keep theirs, in either order. -/
theorem part_keeps (given : Part) :
    Keeps given.placeholders (part grammar given) Part.placeholders := by
  obtain ⟨limit, offset⟩ := given
  -- A word is taken only where its clause is still missing, so that no placeholder is lost.
  have limited_keeps : ∀ limit, Keeps (Expr.placeholdersIn limit ++ Expr.placeholdersIn offset) (do
      let skips ← part.missing? offset "OFFSET"
      let offset ← if skips && (grammar.dialect.looseOffset || limit.isSome) then do
          let count ← grammar.expression
          let _ ← oneOf? ["ROW", "ROWS"]
          pure (some count)
        else pure offset
      return ⟨limit, offset⟩) Part.placeholders := by
    intro limit
    cases offset with
    | none =>
      refine (keyword?_passes (by decide)).bind fun skips => .ite ?_ ?_
      · refine inner.expression.bind fun count => ?_
        exact (oneOf?_passes (by decide)).bind fun _ => .given (.pure (by simp [Part.placeholders]))
      · exact .given (.pure (by simp [Part.placeholders]))
    | some count => exact .given (.pure (by simp [Part.placeholders]))
  cases limit with
  | none =>
    refine (keyword?_passes (by decide)).bind fun _ => .ite ?_ (limited_keeps none)
    refine (keyword?_passes (by decide)).bind fun _ => .ite (limited_keeps none) ?_
    refine inner.optional.bind fun limit => (limited_keeps limit).of_held fun name => ?_
    simp [Part.placeholders]
    tauto
  | some limit => exact limited_keeps (some limit)

/-! ### Changes as bodies -/

theorem returned?_keeps : Keeps [] (returned? grammar) Item.placeholdersOf :=
  (items_keep inner).listAfter (by decide) rfl

section Assignments

omit inner

variable {β : Type} {held : List String} {next : List (List Name × Expr) → Parse β}
  {kept : β → List String}

/-- Assignments are refused where no equals sign comes. -/
theorem assignments_refused {before : List Lexeme}
    (absent : before.any (·.token == .symbol "=") = false)
    (result : List (List Name × Expr) × List Lexeme) :
    commaList (assignment grammar) before ≠ .ok result := by
  intro taken
  obtain ⟨_, _, got, taken⟩ := bind_eq_ok.mp taken
  cases got
  obtain ⟨_, _, taken, -⟩ := bind_eq_ok.mp taken
  obtain ⟨_, _, got, taken⟩ := bind_eq_ok.mp taken
  cases got
  obtain ⟨_, mid, dropped, taken⟩ := bind_eq_ok.mp taken
  cases dropped
  have whole : before.takeWhile (fun lexeme => lexeme.token != .symbol "=") = before :=
    List.takeWhile_eq_self_iff.mpr fun lexeme here => by
      simpa using List.any_eq_false.mp absent lexeme here
  obtain ⟨_, _, taken, -⟩ := bind_eq_ok.mp taken
  simp only [whole, List.drop_length] at taken
  cases taken

/-- Behind the word in front of them, assignments lose no placeholder: they are refused. -/
theorem set_keeps :
    Keeps held (do keyword "SET"; next (← commaList (assignment grammar))) kept := by
  intro before b after taken lossless
  obtain ⟨_, mid, taken₁, taken₂⟩ := bind_eq_ok.mp taken
  obtain ⟨head, rfl, is⟩ := keyword_eq_ok taken₁
  obtain ⟨assigned, _, taken₃, -⟩ := bind_eq_ok.mp taken₂
  have absent := lossless.head
  simp only [opensLoss, is] at absent
  exact absurd taken₃ (assignments_refused absent _)

/-- The same behind the words of an update that stands in for a row. -/
theorem updateSet_keeps :
    Keeps held (do keywords ["UPDATE", "SET"]; next (← commaList (assignment grammar))) kept := by
  intro before b after taken lossless
  obtain ⟨_, mid, taken₁, taken₂⟩ := bind_eq_ok.mp taken
  obtain ⟨opens, rfl⟩ := keywords_eq_ok taken₁
  obtain ⟨first, _, rfl, -, opens⟩ := opensWith_cons.mp opens
  obtain ⟨second, rest, rfl, is, -⟩ := opensWith_cons.mp opens
  obtain ⟨assigned, _, taken₃, -⟩ := bind_eq_ok.mp taken₂
  have absent := lossless.tail.head
  simp only [opensLoss, is] at absent
  exact absurd taken₃ (assignments_refused absent _)

/-- These words do not come. -/
theorem duplicateKey_keeps {next : Unit → Parse β} :
    Keeps held (keywords ["DUPLICATE", "KEY", "UPDATE"] >>= next) kept := by
  intro before b after taken lossless
  obtain ⟨_, mid, taken₁, -⟩ := bind_eq_ok.mp taken
  obtain ⟨head, tail, rfl, is, opens⟩ := opensWith_cons.mp (keywords_eq_ok taken₁).1
  have absent := lossless.head
  simp only [opensLoss, is, opens] at absent
  cases absent

end Assignments

omit inner in
theorem conflict?_keeps : Keeps [] (conflict? grammar) Expr.placeholdersOf := by
  refine (keyword?_passes (by decide)).bind fun _ => .ite ?_ (.done rfl)
  refine (keyword?_passes (by decide)).bind fun _ => .ite ?_ ?_
  · refine (keywords?_passes (by decide)).bind fun _ => ?_
    extract_lets acted
    have acted_keeps : Keeps [] (acted ()) Expr.placeholdersOf := by
      refine (keyword_passes (by decide)).bind fun _ => ?_
      refine (keyword?_passes (by decide)).bind fun _ => .ite (.done rfl) ?_
      exact updateSet_keeps
    exact .ite (path_passes.bind fun _ => acted_keeps) (nameList?_passes.bind fun _ => acted_keeps)
  · exact duplicateKey_keeps

/-- An insertion keeps the placeholders of its rows, of what it does instead and of what it gives
back. -/
theorem insertion_keeps : Keeps [] (insertion grammar) Body.placeholders := by
  refine (keyword?_passes (by decide)).bind fun _ => ?_
  extract_lets targeted
  have targeted_keeps : Keeps [] (targeted ()) Body.placeholders := by
    refine (keyword?_passes (by decide)).bind fun _ => ?_
    refine (keyword?_passes (by decide)).bind fun _ => ?_
    refine (keyword?_passes (by decide)).bind fun _ => ?_
    refine (keyword?_passes (by decide)).bind fun _ => .ite ?_ ?_
    · refine textLiteral_passes.bind fun _ => ?_
      exact inner.query.bind fun query => .pure (by simp)
    refine (keyword?_passes (by decide)).bind fun _ => ?_
    refine path_passes.bind fun table => ?_
    refine (keywords?_passes (by decide)).bind fun _ => .ite ?_ ?_
    · refine conflict?_keeps.bind fun conflict => ?_
      refine (returned?_keeps inner).bind fun returned => .pure ?_
      simp
    refine (symbolAt_passes _ _).bind fun _ => (keywordAt_passes _).bind fun _ => ?_
    extract_lets startsQuery columned
    have filled : ∀ columns partition, Keeps (Expr.placeholdersOf partition) (do
        let given ← grammar.query
        let conflict ← conflict? grammar
        let returned ← returned? grammar
        return .insert table columns (some given) (partition ++ conflict) returned)
        Body.placeholders := by
      intro columns partition
      refine inner.query.bind fun given => ?_
      refine conflict?_keeps.bind fun conflict => ?_
      refine (returned?_keeps inner).bind fun returned => .pure fun name => ?_
      simp
      tauto
    have columned_keeps : ∀ columns, Keeps [] (columned columns) Body.placeholders := by
      intro columns
      refine .ite (.given (filled columns [])) ?_
      exact (inner.expressions.bracketed.listAfter (by decide) rfl).bind (filled columns)
    exact .ite (columned_keeps []) (nameList?_passes.bind columned_keeps)
  refine .ite ?_ ?_
  · exact (oneOf_passes (by decide)).bind fun _ => targeted_keeps
  · exact (keyword?_passes (by decide)).bind fun _ => targeted_keeps

theorem change_keeps : Keeps [] (change grammar) Body.placeholders := by
  exact (source_keeps inner).bind fun table => set_keeps

/-! ### Queries -/

theorem orderTerms_keep : Keeps [] (commaList (orderTerm grammar)) OrderTerm.placeholdersOf :=
  (orderTerm_keeps inner).commaList.congr fun terms => by
    rw [OrderTerm.placeholdersOf_eq]

/-- A query keeps the placeholders that are written in it. -/
theorem queryWith_keeps : Keeps [] (queryWith grammar) Query.placeholders := by
  refine (keyword?_passes (by decide)).bind fun _ => ?_
  extract_lets tabled
  have tabled_keeps : ∀ tables, Keeps (CommonTable.placeholdersOf tables) (tabled tables)
      Query.placeholders := by
    intro tables
    refine (keyword?_passes (by decide)).bind fun _ => .ite ?_ ?_
    · exact (insertion_keeps inner).bind fun whole => .pure (by simp)
    refine (keyword?_passes (by decide)).bind fun _ => .ite ?_ ?_
    · exact (change_keeps inner).bind fun whole => .pure (by simp)
    refine (bodyFrom_keeps inner 3 0).bind fun whole => ?_
    refine ((orderTerms_keep inner).listAfter (by decide) rfl).bind fun order => ?_
    refine Keeps.bind (part_keeps inner ⟨none, none⟩) fun once => ?_
    refine ((part_keeps inner once).frame _).thread fun twice => ?_
    refine (keyword?_passes (by decide)).bind fun _ => ?_
    extract_lets fetched
    have fetched_keeps : ∀ count, Keeps (CommonTable.placeholdersOf tables ++ whole.placeholders ++
        OrderTerm.placeholdersOf order ++ twice.placeholders ++ Expr.placeholdersIn count)
        (fetched count) Query.placeholders := fun count =>
      (lock?_passes.many).bind fun _ => .pure (by simp [Part.placeholders])
    refine .ite (fetchRest_keeps.bind fetched_keeps) ?_
    exact (fetched_keeps none).of_held (by simp)
  refine .ite ?_ (tabled_keeps [])
  refine (keyword?_passes (by decide)).bind fun _ => ?_
  exact (commonTables_keep inner).bind tabled_keeps

end Parse

/-- Expressions and queries keep their placeholders, however deep they are nested. -/
theorem Grammar.ofDepth_keeps (dialect : Dialect) (depth : Nat) :
    (Grammar.ofDepth dialect depth).Keeps := by
  induction depth with
  | zero => exact ⟨fun _ => .fails, .fails⟩
  | succ depth ih => exact ⟨Parse.expression_keeps ih, Parse.queryWith_keeps ih⟩

end GridReport.Sql
