import GridReport.Sql.Tree

/-!
Trees without a part that changes a table.

The body of a query may put rows into a table or set cells anew; rows are taken away by a statement
of its own only. A query may stand in the body, in the common tables, in a source or in an
expression of another one. A tree is harmless if no body at any depth changes a table.

* `Query.harmless` — the query, with all that is nested in it.
* `Statement.harmless` — a statement that is such a query.
-/

namespace GridReport.Sql

mutual

/-- No query in the expression changes a table. -/
def Expr.harmless : Expr → Bool
  | .literal _ => true
  | .placeholder _ => true
  | .column _ _ => true
  | .wildcard _ => true
  | .unary _ operand => operand.harmless
  | .binary _ left right => left.harmless && right.harmless
  | .quantified _ _ left right => left.harmless && right.harmless
  | .truth _ _ operand => operand.harmless
  | .distinct _ left right => left.harmless && right.harmless
  | .inList _ operand items => operand.harmless && Expr.allHarmless items
  | .inQuery _ operand query => operand.harmless && query.harmless
  | .between _ operand low high => operand.harmless && low.harmless && high.harmless
  | .matching _ _ operand pattern _ => operand.harmless && pattern.harmless
  | .choice operand conditions results otherwise =>
    Expr.harmlessIn operand && Expr.allHarmless conditions && Expr.allHarmless results &&
      Expr.harmlessIn otherwise
  | .cast operand _ => operand.harmless
  | .existence _ query => query.harmless
  | .scalar query => query.harmless
  | .nested inner => inner.harmless
  | .tuple items => Expr.allHarmless items
  | .collate operand _ => operand.harmless
  | .call _ _ _ _ arguments clauses filter after =>
    Expr.allHarmless arguments && Expr.allHarmless clauses && Expr.harmlessIn filter &&
      Expr.allHarmless after
  | .form _ parts => Expr.allHarmless parts

/-- The expressions are harmless. -/
def Expr.allHarmless : List Expr → Bool
  | [] => true
  | head :: tail => head.harmless && Expr.allHarmless tail

/-- An expression that may be missing is harmless. -/
def Expr.harmlessIn : Option Expr → Bool
  | none => true
  | some inner => inner.harmless

/-- Neither the query nor one that is nested in it changes a table. -/
def Query.harmless : Query → Bool
  | .mk tables body order limit offset fetch =>
    CommonTable.allHarmless tables && body.harmless && OrderTerm.allHarmless order &&
      Expr.harmlessIn limit && Expr.harmlessIn offset && Expr.harmlessIn fetch

/-- The query of a common table is harmless. -/
def CommonTable.harmless : CommonTable → Bool
  | .mk _ _ query => query.harmless

/-- The queries of common tables are harmless. -/
def CommonTable.allHarmless : List CommonTable → Bool
  | [] => true
  | head :: tail => head.harmless && CommonTable.allHarmless tail

/-- The body changes no table, and neither does a query in it. -/
def Body.harmless : Body → Bool
  | .select _ leading items sources views condition grouping sorting having windows =>
    Expr.allHarmless leading && Item.allHarmless items && Source.allHarmless sources &&
      Expr.allHarmless views && Expr.harmlessIn condition && Expr.allHarmless grouping &&
      Expr.allHarmless sorting && Expr.harmlessIn having && Expr.allHarmless windows
  | .nested query => query.harmless
  | .values rows => Expr.allHarmless rows
  | .table _ => true
  | .combine _ _ left right => left.harmless && right.harmless
  | .insert _ _ _ _ _ => false
  | .update _ _ _ _ _ _ => false

/-- The expression of an item is harmless. -/
def Item.harmless : Item → Bool
  | .value expression _ _ => expression.harmless
  | .all => true
  | .allOf _ => true

/-- The items are harmless. -/
def Item.allHarmless : List Item → Bool
  | [] => true
  | head :: tail => head.harmless && Item.allHarmless tail

/-- No query in the source changes a table. -/
def Source.harmless : Source → Bool
  | .table _ arguments _ _ hints => Expr.allHarmless arguments && Expr.allHarmless hints
  | .derived query _ _ => query.harmless
  | .rows parts _ => Expr.allHarmless parts
  | .join _ left right condition _ =>
    left.harmless && right.harmless && Expr.harmlessIn condition
  | .grouped inner _ => inner.harmless

/-- The sources are harmless. -/
def Source.allHarmless : List Source → Bool
  | [] => true
  | head :: tail => head.harmless && Source.allHarmless tail

/-- The expression of an order term is harmless. -/
def OrderTerm.harmless : OrderTerm → Bool
  | .mk expression _ _ => expression.harmless

/-- The expressions of order terms are harmless. -/
def OrderTerm.allHarmless : List OrderTerm → Bool
  | [] => true
  | head :: tail => head.harmless && OrderTerm.allHarmless tail

end

/-- The statement is a harmless query. -/
def Statement.harmless : Statement → Bool
  | .query inner => inner.harmless
  | _ => false

/-! ### Harmless parts -/

attribute [simp] Expr.harmless Query.harmless CommonTable.harmless Body.harmless
  Item.harmless Source.harmless OrderTerm.harmless

/-- A test of rows that goes from element to element. -/
theorem eq_all_of_cons {α : Type} {test : α → Bool} {testAll : List α → Bool}
    (nil : testAll [] = true)
    (cons : ∀ head tail, testAll (head :: tail) = (test head && testAll tail)) (items : List α) :
    testAll items = items.all test := by
  induction items with
  | nil => exact nil
  | cons head tail ih => rw [cons, ih, List.all_cons]

/-- In a row of expressions, each one is looked at. -/
@[simp] theorem Expr.allHarmless_eq (items : List Expr) :
    Expr.allHarmless items = items.all Expr.harmless :=
  eq_all_of_cons rfl (fun _ _ => rfl) items

/-- An expression that is missing changes nothing. -/
@[simp] theorem Expr.harmlessIn_iff {found : Option Expr} :
    Expr.harmlessIn found ↔ ∀ expr ∈ found, expr.harmless := by
  cases found <;> simp [harmlessIn]

@[simp] theorem CommonTable.allHarmless_eq (tables : List CommonTable) :
    CommonTable.allHarmless tables = tables.all CommonTable.harmless :=
  eq_all_of_cons rfl (fun _ _ => rfl) tables

@[simp] theorem Item.allHarmless_eq (items : List Item) :
    Item.allHarmless items = items.all Item.harmless :=
  eq_all_of_cons rfl (fun _ _ => rfl) items

@[simp] theorem Source.allHarmless_eq (sources : List Source) :
    Source.allHarmless sources = sources.all Source.harmless :=
  eq_all_of_cons rfl (fun _ _ => rfl) sources

@[simp] theorem OrderTerm.allHarmless_eq (terms : List OrderTerm) :
    OrderTerm.allHarmless terms = terms.all OrderTerm.harmless :=
  eq_all_of_cons rfl (fun _ _ => rfl) terms

end GridReport.Sql
