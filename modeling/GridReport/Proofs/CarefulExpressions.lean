import GridReport.Proofs.CarefulTokens
import GridReport.Proofs.HarmlessTrees
import GridReport.Sql.Grammar.Expression

/-!
Expressions of texts without a word that starts a change are harmless.

Each step of the grammar is proved from the steps that it calls; of the expressions and queries that
are nested in it the same is assumed, as they belong to the grammar one level deeper.

* `head_careful`, `continued_careful` — the start of an expression, and an operator with its right
  side.
* `expression_careful` — a whole expression.
-/

namespace GridReport.Sql

open Parse

/-- What is nested in the grammar is harmless if no word in front of it starts a change. -/
class Grammar.Careful (grammar : Grammar) : Prop where
  tighter (rank : Nat) : Parse.Careful (grammar.tighter rank) fun expr => expr.harmless
  query : Parse.Careful grammar.query fun query => query.harmless

attribute [instance] Grammar.Careful.tighter Grammar.Careful.query

namespace Grammar

variable {grammar : Grammar} [grammar.Careful]

instance expression_careful : Parse.Careful grammar.expression fun expr => expr.harmless :=
  Careful.tighter 0

instance expressions_careful :
    Parse.Careful grammar.expressions fun items => ∀ expr ∈ items, expr.harmless :=
  commaList_careful

end Grammar

namespace Parse

/-! ### Values -/

instance placeholderName_careful : Careful value.placeholderName fun _ => True :=
  takeAs_careful fun _ _ _ => trivial

instance value_careful : Careful value fun expr => expr.harmless := by
  refine .bind fun _ _ => .ite (.bind fun _ _ => .pure rfl) ?_
  refine .bind fun _ _ => .ite (.bind fun _ _ => .pure rfl) ?_
  refine takeAs_careful fun token expr is => ?_
  split at is
  case h_2 =>
    -- An unquoted word is one of three literals, or none.
    split at is <;> cases is <;> rfl
  all_goals cases is <;> rfl

variable {grammar : Grammar} [grammar.Careful]

/-! ### Calls -/

instance orderTerm_careful : Careful (orderTerm grammar) fun term => term.harmless := by
  refine .bind fun expr harmless => .bind fun _ _ => ?_
  refine .bind fun _ _ => .ite (.pure harmless) ?_
  exact .bind fun _ _ => .ite (.pure harmless) (.pure harmless)

instance orderExpressions_careful :
    Careful (orderExpressions grammar) fun items => ∀ expr ∈ items, expr.harmless := by
  refine .bind fun terms harmless => .pure fun expr here => ?_
  obtain ⟨⟨expr, _, _⟩, listed, rfl⟩ := List.mem_map.mp here
  exact harmless _ listed

theorem pathRest_careful (fuel : Nat) : Careful (pathRest fuel) fun _ => True := by
  induction fuel with
  | zero => exact .fails
  | succ fuel ih =>
    exact .bind fun _ _ => .ite (.bind fun _ _ => .bind fun _ _ => .done) .done

theorem wildcardRest_careful (fuel : Nat) :
    Careful (wildcardOr.wildcardRest fuel) fun _ => True := by
  induction fuel with
  | zero => exact .fails
  | succ fuel ih =>
    refine .bind fun _ _ => .bind fun _ _ => .ite .done ?_
    exact .bind fun _ _ => .bind fun _ _ => .done

instance wildcardOr_careful : Careful (wildcardOr grammar) fun expr => expr.harmless := by
  refine .orElse (.bind fun _ _ => .pure rfl) (.orElse ?_ inferInstance)
  refine .bind fun _ _ => .bind fun _ _ => ?_
  have := wildcardRest_careful
  exact .bind fun _ _ => .pure rfl

instance argument_careful : Careful (argument grammar) fun expr => expr.harmless :=
  .bind fun _ _ => .ite (.bind fun _ _ => .bind fun _ _ => inferInstance) inferInstance

instance overflow?_careful :
    Careful (overflow? grammar) fun items => ∀ expr ∈ items, expr.harmless := by
  refine .bind fun _ _ => .ite ?_ (.pure (by simp))
  refine .bind fun _ _ => .ite (.pure (by simp)) ?_
  refine .bind fun _ _ => .bind fun coming _ => ?_
  extract_lets counted
  have counted_careful : ∀ filler : List Expr, (∀ expr ∈ filler, expr.harmless) →
      Careful (counted filler) fun items => ∀ expr ∈ items, expr.harmless :=
    fun filler harmless => .bind fun _ _ => .bind fun _ _ => .pure harmless
  split
  iterate 4
    · exact .bind fun expr harmless => counted_careful [expr] (by simpa using harmless)
  · exact counted_careful [] (by simp)

instance arguments_careful : Careful (arguments grammar) fun given =>
    (∀ expr ∈ given.arguments, expr.harmless) ∧ ∀ expr ∈ given.clauses, expr.harmless := by
  refine .bind fun _ _ => .ite (.pure (by simp)) ?_
  refine .bind fun _ _ => .bind fun _ _ => .ite .refused ?_
  refine .bind fun given given_harmless => .bind fun order order_harmless => ?_
  refine .bind fun limit limit_harmless => .bind fun overflow overflow_harmless => ?_
  exact .bind fun _ _ => .pure ⟨given_harmless, by grind⟩

/-! ### Windows -/

instance frameBound_careful :
    Careful (frameBound grammar) fun items => ∀ expr ∈ items, expr.harmless := by
  refine .bind fun _ _ => .ite (.pure (by simp)) (.bind fun _ _ => ?_)
  extract_lets directed
  have directed_careful : ∀ rows : List Expr, (∀ expr ∈ rows, expr.harmless) →
      Careful (directed rows) fun items => ∀ expr ∈ items, expr.harmless :=
    fun rows harmless => .bind fun _ _ => .pure harmless
  refine .ite (directed_careful [] (by simp)) ?_
  exact .bind fun expr harmless => directed_careful [expr] (by simpa using harmless)

instance windowFrame_careful :
    Careful (windowFrame grammar) fun items => ∀ expr ∈ items, expr.harmless := by
  refine .bind fun _ _ => .bind fun _ _ => .ite (.bind fun start start_harmless => ?_) inferInstance
  refine .bind fun _ _ => .bind fun finish finish_harmless => .pure ?_
  exact List.forall_mem_append.mpr ⟨start_harmless, finish_harmless⟩

instance windowRest_careful :
    Careful (windowRest grammar) fun items => ∀ expr ∈ items, expr.harmless := by
  refine .bind fun coming _ => ?_
  extract_lets parted
  have parted_careful : Careful (parted ()) fun items => ∀ expr ∈ items, expr.harmless := by
    refine .bind fun partition partition_harmless => .bind fun order order_harmless => ?_
    refine .bind fun _ _ => .ite (.pure (by grind)) ?_
    exact .bind fun frame frame_harmless => .bind fun _ _ => .pure (by grind)
  split
  · exact .ite (.bind fun _ _ => parted_careful) parted_careful
  · exact parted_careful

/-- The window after a call, or the name of one. -/
instance over_careful : Careful (do
    if ← symbol? "(" then windowRest grammar
    else do
      let _ ← name
      return []) fun items => ∀ expr ∈ items, expr.harmless :=
  .bind fun _ _ => .ite inferInstance (.bind fun _ _ => .pure (by simp))

instance within_careful : Careful (do
    keywords ["ORDER", "BY"]
    orderExpressions grammar) fun items => ∀ expr ∈ items, expr.harmless :=
  .bind fun _ _ => inferInstance

instance filter_careful : Careful (do
    keyword "WHERE"
    grammar.expression) fun expr => expr.harmless :=
  .bind fun _ _ => inferInstance

instance call_careful (function : List Name) (index : Nat) :
    Careful (call grammar function index) fun expr => expr.harmless := by
  refine .bind fun _ _ => .bind fun given ⟨arguments_harmless, clauses_harmless⟩ => ?_
  refine .bind fun within within_harmless => .bind fun filter filter_harmless => ?_
  refine .bind fun _ _ => ?_
  extract_lets windowed
  have windowed_careful : Careful (windowed ()) fun expr => expr.harmless := by
    refine .bind fun window window_harmless => .pure ?_
    have shown : ∀ expr ∈ window.getD [], expr.harmless := by cases window <;> simp_all
    simp
    grind
  exact .ite (.bind fun _ _ => windowed_careful) windowed_careful

instance named_careful (head : Name) (index : Nat) :
    Careful (named grammar head index) fun expr => expr.harmless := by
  have := pathRest_careful
  refine .bind fun _ _ => .bind fun path _ => .bind fun _ _ => .ite inferInstance ?_
  refine .bind fun coming _ => ?_
  split
  iterate 3
    · exact .ite (.bind fun introduced harmless => .pure (by simp [harmless])) (.pure rfl)
  · exact .pure rfl

/-! ### Forms of their own -/

instance dateField_careful : Careful dateField fun _ => True := .bind fun _ _ => .done

theorem choiceFrom_careful (fuel : Nat) : Careful (choiceFrom grammar fuel) fun pairs =>
    ∀ pair ∈ pairs, pair.1.harmless ∧ pair.2.harmless := by
  induction fuel with
  | zero => exact .fails
  | succ fuel ih =>
    refine .bind fun condition condition_harmless => .bind fun _ _ => ?_
    refine .bind fun result result_harmless => .bind fun _ _ => .ite ?_ ?_
    · refine .bind fun pairs harmless => .pure (List.forall_mem_cons.mpr ⟨?_, harmless⟩)
      exact ⟨condition_harmless, result_harmless⟩
    · exact .pure (List.forall_mem_singleton.mpr ⟨condition_harmless, result_harmless⟩)

instance choice_careful : Careful (choice grammar) fun expr => expr.harmless := by
  have := @choiceFrom_careful grammar
  refine .bind fun _ _ => ?_
  extract_lets chosen
  have chosen_careful : ∀ operand : Option Expr, (∀ expr ∈ operand, expr.harmless) →
      Careful (chosen operand) fun expr => expr.harmless := by
    intro operand operand_harmless
    refine .bind fun _ _ => .bind fun pairs pairs_harmless => ?_
    refine .bind fun otherwise otherwise_harmless => .bind fun _ _ => .pure ?_
    simp
    grind
  refine .ite (chosen_careful none (by simp)) ?_
  refine .bind fun operand harmless => .bind fun _ _ => chosen_careful (some operand) ?_
  simpa using harmless

instance cast_careful : Careful (cast grammar) fun expr => expr.harmless := by
  refine .bracketed (.bind fun operand harmless => .bind fun _ _ => .bind fun type _ => ?_)
  refine .bind fun _ _ => .ite (.bind fun _ _ => .bind fun _ _ => .ite ?_ ?_) (.pure harmless)
  · exact .bind fun _ _ => .pure harmless
  · exact .pure harmless

instance conversion_careful : Careful (conversion grammar) fun expr => expr.harmless := by
  refine .bracketed (.bind fun operand harmless => .bind fun _ _ => .ite ?_ ?_)
  · exact .bind fun _ _ => .pure (by simp [harmless])
  · refine .bind fun _ _ => .bind fun type _ => .bind fun _ _ => .ite ?_ (.pure harmless)
    exact .bind fun _ _ => .pure harmless

instance extraction_careful : Careful (extraction grammar) fun expr => expr.harmless :=
  .bracketed (.bind fun _ _ => .bind fun _ _ => .bind fun whole harmless =>
    .pure (by simp [harmless]))

instance rounding_careful (word : Name) (index : Nat) :
    Careful (rounding grammar word index) fun expr => expr.harmless := by
  refine .bracketed (.bind fun operand harmless => .bind fun _ _ => .ite ?_ ?_)
  · exact .bind fun _ _ => .pure (by simp [harmless])
  · exact .pure (by simp [plainCall, harmless])

instance position_careful (word : Name) (index : Nat) :
    Careful (position grammar word index) fun expr => expr.harmless := by
  refine .orElse (.bracketed ?_) inferInstance
  refine .bind fun wanted wanted_harmless => .bind fun _ _ => ?_
  exact .bind fun whole whole_harmless => .pure (by simp [wanted_harmless, whole_harmless])

instance substring_careful (word : Name) (index : Nat) :
    Careful (substring grammar word index) fun expr => expr.harmless := by
  refine .bracketed (.bind fun whole harmless => .bind fun special _ => ?_)
  extract_lets started
  have counted : ∀ {start count : Option Expr}, (∀ expr ∈ start, expr.harmless) →
      (∀ expr ∈ count, expr.harmless) →
      (plainCall [word] index (whole :: start.toList ++ count.toList)).harmless := by
    intro start count start_harmless count_harmless
    simp [plainCall, harmless]
    grind
  have started_careful : ∀ start : Option Expr, (∀ expr ∈ start, expr.harmless) →
      Careful (started start) fun expr => expr.harmless := by
    intro start start_harmless
    refine .ite (.bind fun _ _ => .ite ?_ ?_) (.given (.ite ?_ ?_))
    iterate 4
      · exact .bind fun count count_harmless => .pure (counted start_harmless count_harmless)
  exact .ite (.bind started_careful) (.bind started_careful)

instance overlay_careful : Careful (overlay grammar) fun expr => expr.harmless := by
  refine .bracketed (.bind fun whole whole_harmless => .bind fun _ _ => ?_)
  refine .bind fun part part_harmless => .bind fun _ _ => ?_
  refine .bind fun start start_harmless => .bind fun count count_harmless => .pure ?_
  simp [whole_harmless, part_harmless, start_harmless]
  grind

instance trimming_careful (word : Name) (index : Nat) :
    Careful (trimming grammar word index) fun expr => expr.harmless := by
  refine .bracketed (.bind fun side _ => .bind fun first first_harmless => ?_)
  refine .bind fun _ _ => .ite ?_ (.ite ?_ ?_)
  · exact .bind fun whole whole_harmless => .pure (by simp [whole_harmless, first_harmless])
  · exact .pure (by simp [first_harmless])
  · exact .pure (by simp [plainCall, first_harmless])

instance interval_careful : Careful (interval grammar) fun expr => expr.harmless := by
  refine .bind fun amount harmless => .bind fun field _ => ?_
  extract_lets measured
  have measured_careful : ∀ u, Careful (measured u) fun expr => expr.harmless :=
    fun _ => .pure (by simp [harmless])
  split
  · exact .bind fun _ _ => measured_careful ()
  · refine .bind fun _ _ => .bind fun _ _ => .ite ?_ (measured_careful ())
    refine .bind fun _ _ => .ite ?_ ?_
    · exact .bind fun _ _ => measured_careful ()
    · exact .bind fun _ _ => measured_careful ()

instance typedText_careful : Careful (typedText grammar) fun expr => expr.harmless := by
  refine .bind fun _ _ => .ite (.bind fun _ _ => inferInstance) (.bind fun (type, isKnown) _ => ?_)
  exact .ite (.bind fun _ _ => .pure rfl) .refused

instance subquery_careful : Careful (subquery grammar) fun query => query.harmless :=
  bracketed_careful

instance negation_careful : Careful (negation grammar) fun expr => expr.harmless :=
  .bind fun _ _ => .ite (.bind fun query harmless => .pure (by simp [harmless]))
    (.bind fun operand harmless => .pure (by simp [harmless]))

instance bracketRest_careful : Careful (bracketRest grammar) fun expr => expr.harmless := by
  refine .bind fun word _ => ?_
  extract_lets closed
  have closed_careful : ∀ whole : Expr, whole.harmless →
      Careful (closed whole) fun expr => expr.harmless := by
    intro whole harmless
    refine .bind fun _ _ => .bind fun _ _ => .ite (.bind fun lexeme _ => ?_) (.pure harmless)
    split
    · exact .pure (by simp [harmless])
    · exact .fails
  refine .ite ?_ (.bind fun items harmless => ?_)
  · have : Careful (Expr.scalar <$> grammar.query) fun expr => expr.harmless :=
      .map fun query harmless => by simp [harmless]
    exact .bind closed_careful
  · split
    · exact closed_careful _ (by simpa using harmless)
    · exact closed_careful _ (by simpa using harmless)

instance timeFunction_careful (word : Name) (index : Nat) :
    Careful (worded.timeFunction grammar word index) fun expr => expr.harmless := by
  refine .bind fun _ _ => .ite ?_ (.pure (by simp [plainCall]))
  refine .bind fun given ⟨arguments_harmless, clauses_harmless⟩ => .pure ?_
  simp
  grind

instance worded_careful (word : Name) (index : Nat) :
    Careful (worded grammar word index) fun expr => expr.harmless := by
  unfold worded
  split
  iterate 3
    · exact .pure rfl
  -- Most words have a step of their own.
  all_goals try exact inferInstance
  · exact .bind fun query harmless => .pure (by simp [harmless])
  · exact .bind fun _ _ => .ite inferInstance inferInstance
  · refine .bind fun _ _ => .ite ?_ inferInstance
    exact .bind fun query harmless => .pure (by simp [harmless])

instance head_careful : Careful (head grammar) fun expr => expr.harmless := by
  refine .bind fun lexeme plain => ?_
  split
  · exact inferInstance
  · exact inferInstance
  · exact .bind fun operand harmless => .pure (by simp [harmless])
  · exact .bind fun operand harmless => .pure (by simp [harmless])
  · exact inferInstance
  · exact .fails
  · have := putBack_careful plain
    exact .bind fun _ _ => inferInstance

instance operand_careful : Careful (operand grammar) fun expr => expr.harmless := by
  have : Careful (typedText grammar <|> head grammar) fun expr => expr.harmless :=
    .orElse inferInstance inferInstance
  refine .bind fun start harmless => .bind fun _ _ => .ite ?_ (.pure harmless)
  exact .bind fun _ _ => .pure harmless

/-! ### Operators -/

section Operators

variable {left : Expr} (left_harmless : left.harmless)
include left_harmless

/-- The right side of an operator changes nothing. -/
theorem rightSide_careful (operator : String) (rank : Nat) :
    Careful (rightSide grammar operator left rank) fun expr => expr.harmless := by
  refine .bind fun quantifier _ => ?_
  cases quantifier with
  | none => exact .bind fun right harmless => .pure (by simp [left_harmless, harmless])
  | some quantifier =>
    refine .bind fun _ _ => .bind fun _ _ => ?_
    extract_lets isQuery compared
    have compared_careful : ∀ right : Expr, right.harmless →
        Careful (compared right) fun expr => expr.harmless :=
      fun right harmless => .ite (.pure (by simp [left_harmless, harmless])) .refused
    exact .ite (.bind compared_careful) (.bind compared_careful)

theorem membership_careful (negated : Bool) :
    Careful (membership grammar negated left) fun expr => expr.harmless := by
  refine .bind fun _ _ => .ite ?_ (.bracketed (.bind fun word _ => .ite ?_ ?_))
  · exact .bind fun set harmless => .pure (by simp [left_harmless, harmless])
  · exact .bind fun query harmless => .pure (by simp [left_harmless, harmless])
  · refine .bind fun _ _ => .ite (.pure (by simp [left_harmless])) ?_
    exact .bind fun items harmless => .pure (by simpa [left_harmless] using harmless)

theorem bounds_careful (negated : Bool) :
    Careful (bounds grammar negated left) fun expr => expr.harmless := by
  refine .bind fun low low_harmless => .bind fun _ _ => ?_
  exact .bind fun high high_harmless =>
    .pure (by simp [left_harmless, low_harmless, high_harmless])

theorem pattern_careful (word : String) (negated : Bool) :
    Careful (pattern grammar word negated left) fun expr => expr.harmless :=
  .bind fun right harmless => .bind fun _ _ => .pure (by simp [left_harmless, harmless])

theorem testRest_careful (negated : Bool) :
    Careful (testRest grammar negated left) fun expr => expr.harmless := by
  refine .bind fun _ _ => .ite ?_ (.bind fun _ _ => .ite ?_ ?_)
  · exact .bind fun right harmless => .pure (by simp [left_harmless, harmless])
  · exact .bind fun right harmless => .pure (by simp [left_harmless, harmless])
  refine .bind fun _ _ => .ite (membership_careful left_harmless _) ?_
  refine .bind fun _ _ => .ite (bounds_careful left_harmless _) ?_
  refine .bind fun _ _ => .ite (pattern_careful left_harmless _ _) ?_
  refine .bind fun _ _ => .ite (pattern_careful left_harmless _ _) ?_
  exact .bind fun _ _ => pattern_careful left_harmless _ _

/-- Nor does a test behind an operand. -/
theorem question_careful : Careful (question grammar left) fun expr => expr.harmless := by
  refine .bind fun negated _ => .bind fun asked _ => ?_
  split
  iterate 4
    · exact .pure (by simp [left_harmless])
  · exact .bind fun _ _ => .bind fun right harmless => .pure (by simp [left_harmless, harmless])

/-- An operator and its right side go on from an operand that changes nothing. -/
theorem continued_careful (rank : Nat) :
    Careful (continued grammar left rank) fun expr => expr.harmless := by
  refine .bind fun lexeme plain => ?_
  split
  · exact .bind fun type _ => .pure (by simp [left_harmless])
  · exact .pure (by simp [left_harmless])
  · exact .ite (rightSide_careful left_harmless _ _) .fails
  · split
    iterate 4
      · exact rightSide_careful left_harmless _ _
    · exact question_careful left_harmless
    · exact .bind fun _ _ => .bind fun zone harmless => .pure (by simp [left_harmless, harmless])
    · exact testRest_careful left_harmless _
    · exact .fails
    · have := putBack_careful plain
      exact .bind fun _ _ => testRest_careful left_harmless _

theorem continuedFrom_careful (rank fuel : Nat) :
    Careful (continuedFrom grammar rank left fuel) fun expr => expr.harmless := by
  induction fuel generalizing left with
  | zero => exact .pure left_harmless
  | succ fuel ih =>
    refine .bind fun _ _ => .ite (.pure left_harmless) ?_
    have := @continued_careful grammar _ left left_harmless
    exact .bind fun whole harmless => ih harmless

end Operators

/-- An expression is harmless. -/
theorem expression_careful (rank : Nat) :
    Careful (expression grammar rank) fun expr => expr.harmless :=
  .bind fun _ harmless => .bind fun _ _ => continuedFrom_careful harmless _ _

end Parse

end GridReport.Sql
