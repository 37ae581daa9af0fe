import GridReport.Proofs.CarefulExpressions
import GridReport.Proofs.KeptTexts

/-!
Queries of texts without a word that starts a change are harmless.

* `selection_careful`, `source_careful` — the bodies of a query and what they read.
* `queryWith_careful` — a query: what changes a table comes after a word that the text does not
  have.
* `ofDepth_careful` — expressions and queries nested to any depth.
* `harmless_of_calm` — the query of a text.
-/

namespace GridReport.Sql

namespace Parse

variable {grammar : Grammar} [grammar.Careful]

/-! ### Items and sources -/

instance item_careful : Careful (item grammar) fun item => item.harmless := by
  refine .bind fun before _ => .bind fun expr harmless => ?_
  split
  · exact .pure rfl
  · exact .pure rfl
  · refine .bind fun after _ => ?_
    extract_lets written labelled
    have labelled_careful : Careful (labelled ()) fun item => item.harmless :=
      .bind fun label _ => .pure harmless
    split
    · exact .ite .refused labelled_careful
    · exact labelled_careful

instance distinctness_careful :
    Careful (distinctness grammar) fun (_, on) => ∀ expr ∈ on, expr.harmless := by
  refine .bind fun _ _ => .bind fun _ _ => .ite (.ite .refused ?_) (.pure (by simp))
  refine .bind fun _ _ => .ite (.bracketed ?_) (.pure (by simp))
  exact .bind fun _ _ => .ite (.pure (by simp)) (.bind fun on harmless => .pure harmless)

instance top_careful : Careful (top grammar) fun items => ∀ expr ∈ items, expr.harmless := by
  refine .bind fun _ _ => ?_
  extract_lets counted
  have counted_careful : ∀ count : List Expr, (∀ expr ∈ count, expr.harmless) →
      Careful (counted count) fun items => ∀ expr ∈ items, expr.harmless :=
    fun count harmless => .bind fun _ _ => .bind fun _ _ => .pure harmless
  refine .ite ?_ (.bind fun _ _ => counted_careful [] (by simp))
  exact .bind fun count harmless => counted_careful [count] (by simpa using harmless)

instance joinConstraint_careful (natural : Bool) :
    Careful (joinConstraint grammar natural) fun (condition, _) =>
      ∀ expr ∈ condition, expr.harmless := by
  refine .ite (.pure (by simp)) (.bind fun _ _ => .ite ?_ ?_)
  · exact .bind fun condition harmless => .pure (by simpa using harmless)
  · exact .bind fun _ _ => .ite (.bind fun _ _ => .pure (by simp)) (.pure (by simp))

instance joinKind?_careful : Careful joinKind? fun _ => True := by
  refine .bind fun _ _ => .ite (.bind fun _ _ => .done) ?_
  refine .bind fun _ _ => .ite (.bind fun _ _ => .done) (.bind fun natural _ => ?_)
  extract_lets plain
  refine .bind fun side _ => ?_
  split
  · exact .done
  · exact .bind fun _ _ => .done
  · exact .bind fun _ _ => .bind fun _ _ => .done
  · refine .bind fun _ _ => ?_
    split
    · exact .done
    · exact .bind fun _ _ => .done
    · exact .bind fun _ _ => .done
  · exact .ite .fails .done

instance sourceArguments_careful :
    Careful (sourceArguments grammar) fun items => ∀ expr ∈ items, expr.harmless :=
  .bracketed (.bind fun _ _ => .ite (.pure (by simp)) inferInstance)

instance namedSource_careful : Careful (namedSource grammar) fun source => source.harmless := by
  refine .bind fun place _ => .bind fun _ _ => ?_
  extract_lets given
  have given_careful : ∀ arguments : List Expr, (∀ expr ∈ arguments, expr.harmless) →
      Careful (given arguments) fun source => source.harmless := by
    intro arguments arguments_harmless
    refine .bind fun _ _ => .bind fun (label, columns) _ => ?_
    refine .bind fun _ _ => .bind fun _ _ => .ite (.bind fun _ _ => ?_) (.given (.pure ?_))
    · refine .bind fun hints hints_harmless => .pure ?_
      simpa using ⟨arguments_harmless, hints_harmless⟩
    · simpa using arguments_harmless
  exact .ite (.bind given_careful) (given_careful [] (by simp))

instance derivedRest_careful : Careful (derivedRest grammar) fun source => source.harmless :=
  .bind fun query harmless => .bind fun _ _ => .bind fun (label, columns) _ =>
    .pure (by simpa using harmless)

/-- Sources joined to one that changes nothing. -/
theorem joinsFrom_careful {factor : Parse Source} [Careful factor fun source => source.harmless]
    {left : Source} (left_harmless : left.harmless) (fuel : Nat) :
    Careful (joinsFrom grammar factor left fuel) fun source => source.harmless := by
  induction fuel generalizing left with
  | zero => exact .pure left_harmless
  | succ fuel ih =>
    refine .bind fun _ _ => .bind fun kind _ => ?_
    split
    · exact .pure left_harmless
    · refine .bind fun right right_harmless => .ite ?_ (.given ?_)
      · refine .bind fun (condition, shared) condition_harmless => ih ?_
        simpa [left_harmless, right_harmless] using condition_harmless
      · exact ih (by simp [left_harmless, right_harmless])

theorem joinedWith_careful {factor : Parse Source} [Careful factor fun source => source.harmless] :
    Careful (joinedWith grammar factor) fun source => source.harmless :=
  .bind fun _ harmless => .bind fun _ _ => joinsFrom_careful harmless _

theorem factorFrom_careful (fuel : Nat) :
    Careful (factorFrom grammar fuel) fun source => source.harmless := by
  induction fuel with
  | zero => exact .fails
  | succ fuel ih =>
    have joined := @joinedWith_careful grammar _ (factorFrom grammar fuel) ih
    refine .bind fun _ _ => .ite (.bind fun _ _ => .ite inferInstance ?_) ?_
    · refine .bind fun _ _ => .bind fun given harmless => .bind fun (label, _) _ => .pure ?_
      simpa using harmless
    refine .bind fun _ _ => .ite ?_ (.bind fun _ _ => .ite ?_ inferInstance)
    · exact .bind fun rows harmless => .bind fun (label, _) _ => .pure (by simpa using harmless)
    · refine .bind fun derived derived_harmless => ?_
      cases derived with
      | some source => exact .pure (derived_harmless source rfl)
      | none =>
        refine .bind fun inner harmless => .ite ?_ .refused
        exact .bind fun _ _ => .bind fun (label, _) _ => .pure (by simpa using harmless)

instance source_careful : Careful (source grammar) fun source => source.harmless := by
  have : Careful (factor grammar) fun source => source.harmless :=
    .bind fun _ _ => factorFrom_careful _
  exact joinedWith_careful

/-! ### Selections -/

instance lateralView?_careful :
    Careful (lateralView? grammar) fun view => ∀ expr ∈ view, expr.harmless := by
  refine .bind fun _ _ => .ite (.bind fun _ _ => ?_) (.pure (by simp))
  refine .bind fun view harmless => .bind fun _ _ => .bind fun _ _ => .pure ?_
  simpa using harmless

instance namedWindow_careful :
    Careful (namedWindow grammar) fun items => ∀ expr ∈ items, expr.harmless :=
  .bind fun _ _ => .bind fun _ _ => .bind fun _ _ => inferInstance

instance namedWindows_careful : Careful (List.flatten <$> commaList (namedWindow grammar))
    fun items => ∀ expr ∈ items, expr.harmless := by
  refine .map fun windows harmless expr here => ?_
  obtain ⟨window, listed, here⟩ := List.mem_flatten.mp here
  exact harmless window listed expr here

instance windows_careful :
    Careful (windows grammar) fun items => ∀ expr ∈ items, expr.harmless := by
  refine .bind fun names names_harmless => .bind fun condition condition_harmless => .ite ?_ ?_
  · exact .bind fun later later_harmless => .pure (by grind)
  · exact .given (.pure (by grind))

instance target?_careful : Careful target? fun _ => True :=
  .bind fun _ _ => .ite (.bind fun _ _ => .bind fun _ _ => .bind fun _ _ => .bind fun _ _ => .done)
    .done

instance grouping_careful : Careful (do
    if ← keyword? "ALL" then return [] else grammar.expressions)
    fun items => ∀ expr ∈ items, expr.harmless :=
  .bind fun _ _ => .ite (.pure (by simp)) inferInstance

instance selection_careful : Careful (selection grammar) fun body => body.harmless := by
  refine .bind fun (isDistinct, on) on_harmless => .bind fun _ _ => ?_
  extract_lets counted
  have counted_careful : ∀ count : List Expr, (∀ expr ∈ count, expr.harmless) →
      Careful (counted count) fun body => body.harmless := by
    intro count count_harmless
    refine .bind fun items items_harmless => .bind fun _ _ => ?_
    refine .bind fun sources sources_harmless => .bind fun views views_harmless => ?_
    refine .bind fun condition condition_harmless => .bind fun grouping grouping_harmless => ?_
    refine .bind fun cluster cluster_harmless => .bind fun distribution distribution_harmless => ?_
    refine .bind fun sorting sorting_harmless => .bind fun having having_harmless => ?_
    refine .bind fun shown shown_harmless => .pure ?_
    have each_view : ∀ view ∈ views, view.harmless := fun view here =>
      views_harmless view here view rfl
    simp
    grind
  exact .ite (.bind counted_careful) (counted_careful [] (by simp))

instance rows_careful : Careful (rows grammar) fun body => body.harmless := by
  unfold rows
  extract_lets row
  have row_careful : Careful row fun expr => expr.harmless :=
    .bind fun _ _ => .bind fun cells harmless => .pure (by simpa using harmless)
  exact .bind fun rows harmless => .pure (by simpa using harmless)

/-! ### Bodies -/

instance tableRest_careful : Careful tableRest fun body => body.harmless := by
  refine .bind fun coming calm => ?_
  split
  · have := set_careful calm.tail.tail.tail
    exact .bind fun _ _ => .pure rfl
  · exact .fails
  · have := set_careful (calm.tail.subset (List.drop_subset 2 _))
    exact .bind fun _ _ => .pure rfl
  · exact .fails

instance setOperator_careful (operator : SetOperator) :
    Careful (setOperator operator) fun _ => True := by
  have plain : Careful (do
      if ← keyword? "ALL" then return true
      else do
        let _ ← keyword? "DISTINCT"
        return false) fun _ => True :=
    .bind fun _ _ => .ite .done (.bind fun _ _ => .done)
  cases operator with
  | union =>
    refine .bind fun _ _ => .ite .done (.bind fun _ _ => .ite .done ?_)
    exact .bind fun _ _ => .ite (.bind fun _ _ => .done) (.bind fun _ _ => .done)
  | except => exact plain
  | intersect => exact plain

instance bodyPart_careful : Careful (bodyPart grammar) fun body => body.harmless := by
  have bracket : Careful (bodyPart.bracket? grammar) fun _ => True := .ite inferInstance .done
  refine .bind fun _ _ => .ite inferInstance (.bind fun _ _ => .ite ?_ ?_)
  · exact .bind fun query harmless => .bind fun _ _ => .pure harmless
  · exact .bind fun _ _ => .ite inferInstance (.bind fun _ _ => inferInstance)

/-- Bodies put together change nothing if each of them does not. -/
theorem combinedFrom_careful {dialect : Dialect} {part : Nat → Parse Body}
    (own : ∀ rank, Careful (part rank) fun body => body.harmless) (rank : Nat) {left : Body}
    (left_harmless : left.harmless) (fuel : Nat) :
    Careful (combinedFrom dialect part rank left fuel) fun body => body.harmless := by
  induction fuel generalizing left with
  | zero => exact .pure left_harmless
  | succ fuel ih =>
    refine .bind fun word _ => ?_
    split
    · exact .pure left_harmless
    · refine .ite (.pure left_harmless) (.bind fun _ _ => .bind fun all _ => ?_)
      exact .bind fun right harmless => ih (by simp [left_harmless, harmless])

theorem bodyFrom_careful (depth rank : Nat) :
    Careful (bodyFrom grammar depth rank) fun body => body.harmless := by
  induction depth generalizing rank with
  | zero => exact bodyPart_careful
  | succ depth ih =>
    exact .bind fun left harmless => .bind fun _ _ => combinedFrom_careful ih rank harmless _

instance body_careful : Careful (body grammar) fun body => body.harmless := bodyFrom_careful 3 0

instance commonTable_careful : Careful (commonTable grammar) fun table => table.harmless := by
  refine .bind fun word _ => .bind fun _ _ => ?_
  extract_lets listed
  have listed_careful : ∀ columns, Careful (listed columns) fun table => table.harmless := by
    intro columns
    refine .bind fun query harmless => .bind fun _ _ => .ite ?_ (.pure harmless)
    exact .bind fun _ _ => .pure harmless
  refine .ite (listed_careful []) ?_
  exact .bind fun columns _ => .bind fun _ _ => listed_careful columns

/-! ### Queries -/

instance fetchRest_careful : Careful fetchRest fun count => ∀ expr ∈ count, expr.harmless := by
  refine .bind fun _ _ => .bind fun _ _ => ?_
  extract_lets ended
  have ended_careful : ∀ count : Option Expr, (∀ expr ∈ count, expr.harmless) →
      Careful (ended count) fun count => ∀ expr ∈ count, expr.harmless :=
    fun count harmless => .bind fun _ _ => .ite (.pure harmless)
      (.bind fun _ _ => .pure harmless)
  refine .ite (ended_careful none (by simp)) (.bind fun count harmless => ?_)
  refine .bind fun _ _ => .bind fun _ _ => ended_careful (some count) ?_
  simpa using harmless

instance lock?_careful : Careful lock? fun _ => True := by
  refine .bind fun _ _ => .ite (.bind fun _ _ => .ite .done ?_) .done
  refine .bind fun _ _ => .bind fun _ _ => ?_
  extract_lets finished locked
  have locked_careful : Careful (locked ()) fun _ => True := by
    refine .bind fun _ _ => .ite .done (.bind fun _ _ => .ite (.bind fun _ _ => .done) .done)
  exact .ite (.bind fun _ _ => locked_careful) locked_careful

instance missing?_careful (clause : Option Expr) (word : String) :
    Careful (part.missing? clause word) fun _ => True :=
  .ite .forget .done

/-- The expressions of a limit and an offset are harmless. -/
def Part.Harmless (given : Part) : Prop :=
  (∀ expr ∈ given.limit, expr.harmless) ∧ ∀ expr ∈ given.offset, expr.harmless

/-- A limit and an offset change nothing. -/
theorem part_careful {given : Part} (harmless : given.Harmless) :
    Careful (part grammar given) Part.Harmless := by
  obtain ⟨limit_harmless, offset_harmless⟩ := harmless
  refine .bind fun _ _ => ?_
  extract_lets limited
  have limited_careful : ∀ limit : Option Expr, (∀ expr ∈ limit, expr.harmless) →
      Careful (limited limit) Part.Harmless := by
    intro limit limit_harmless
    refine .bind fun _ _ => ?_
    extract_lets completed
    refine .ite (.bind fun count harmless => .bind fun _ _ => ?_) ?_
    · exact .given (.pure ⟨limit_harmless, by simpa using harmless⟩)
    · exact .given (.pure ⟨limit_harmless, offset_harmless⟩)
  refine .ite (.bind fun _ _ => .ite (limited_careful none (by simp)) (.bind limited_careful)) ?_
  exact limited_careful _ limit_harmless

/-- A query is harmless: what changes a table starts with a word that the text does not have. -/
instance queryWith_careful : Careful (queryWith grammar) fun query => query.harmless := by
  refine .bind fun _ _ => ?_
  extract_lets tabled
  have tabled_careful : ∀ tables : List CommonTable, (∀ table ∈ tables, table.harmless) →
      Careful (tabled tables) fun query => query.harmless := by
    intro tables tables_harmless
    refine .bind fun inserts insert_word => ?_
    cases inserts with
    | true => exact absurd (insert_word rfl) (by decide)
    | false =>
      refine .bind fun updates update_word => ?_
      cases updates with
      | true => exact absurd (update_word rfl) (by decide)
      | false =>
        have once_careful := @part_careful grammar _ ⟨none, none⟩ ⟨by simp, by simp⟩
        refine .bind fun whole whole_harmless => .bind fun order order_harmless => ?_
        refine .bind fun once once_harmless => ?_
        have twice_careful := @part_careful grammar _ once once_harmless
        refine .bind fun twice ⟨limit_harmless, offset_harmless⟩ => .bind fun _ _ => ?_
        extract_lets fetched
        have fetched_careful : ∀ count : Option Expr, (∀ expr ∈ count, expr.harmless) →
            Careful (fetched count) fun query => query.harmless := by
          intro count count_harmless
          refine .bind fun _ _ => .pure ?_
          simp
          grind
        exact .ite (.bind fetched_careful) (fetched_careful none (by simp))
  exact .ite (.bind fun _ _ => .bind tabled_careful) (tabled_careful [] (by simp))

end Parse

/-- Expressions and queries are harmless, however deep they are nested. -/
instance Grammar.ofDepth_careful (dialect : Dialect) (depth : Nat) :
    (Grammar.ofDepth dialect depth).Careful := by
  induction depth with
  | zero => exact ⟨fun _ => .fails, .fails⟩
  | succ depth ih =>
    constructor
    · exact Parse.expression_careful
    · exact Parse.queryWith_careful

/-- A query of a text without a word that starts a change is harmless. -/
theorem harmless_of_calm {dialect : Dialect} {text : String} {query : Query}
    {others : List Statement} (parsed : parse dialect text = .ok (.query query :: others))
    (calm : Calm (tokens text)) : query.harmless := by
  obtain ⟨mid, taken⟩ := Parse.parse_cons parsed
  obtain ⟨read, same, -, taken⟩ := Parse.statement_reads taken rfl
  cases same
  exact (Parse.Careful.of_calm taken (calm.subset (Parse.afterSemicolons_subset _))).2

end GridReport.Sql
