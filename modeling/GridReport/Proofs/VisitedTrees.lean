import GridReport.Proofs.KeptQueries
import GridReport.Sql.Collector
import Mathlib.Control.Basic
import Mathlib.Data.List.Induction

/-!
The tree of a query as it is visited, and what is collected on the way.

A visit enters a node and then its parts in their order, so it comes to everything in the tree. The
names of placeholders are collected on the way; the first one without a name ends the visit, however
deep it is, and what has been collected before it counts for nothing.

* `mem_visit` — a visit comes to exactly what is in a tree.
* `placeholders_eq` — the placeholders of a node are those that its visit comes to, in this order.
* `collect_eq` — the collection with its early end, and what it has collected at the last.
-/

namespace GridReport.Sql

/-! ### Visits -/

/-- A node of the tree of a query. -/
inductive Node where
  | query (query : Query)
  | table (table : CommonTable)
  | body (body : Body)
  | item (item : Item)
  | source (source : Source)
  | term (term : OrderTerm)
  | expr (expr : Expr)

/-- The parts of an expression, from left to right. -/
def Expr.parts : Expr → List Node
  | .literal _ => []
  | .placeholder _ => []
  | .column _ _ => []
  | .wildcard _ => []
  | .unary _ operand => [.expr operand]
  | .binary _ left right => [.expr left, .expr right]
  | .quantified _ _ left right => [.expr left, .expr right]
  | .truth _ _ operand => [.expr operand]
  | .distinct _ left right => [.expr left, .expr right]
  | .inList _ operand items => .expr operand :: items.map .expr
  | .inQuery _ operand query => [.expr operand, .query query]
  | .between _ operand low high => [.expr operand, .expr low, .expr high]
  | .matching _ _ operand pattern _ => [.expr operand, .expr pattern]
  | .choice operand conditions results otherwise =>
    (operand.toList ++ conditions ++ results ++ otherwise.toList).map .expr
  | .cast operand _ => [.expr operand]
  | .existence _ query => [.query query]
  | .scalar query => [.query query]
  | .nested inner => [.expr inner]
  | .tuple items => items.map .expr
  | .collate operand _ => [.expr operand]
  | .call _ _ _ _ arguments clauses filter after =>
    (arguments ++ clauses ++ filter.toList ++ after).map .expr
  | .form _ parts => parts.map .expr

/-- The parts of a query: its common tables, its body, its order and the part of its rows. -/
def Query.parts : Query → List Node
  | .mk tables body order limit offset fetch =>
    tables.map .table ++ .body body :: order.map .term ++
      (limit.toList ++ offset.toList ++ fetch.toList).map .expr

/-- The parts of a body. -/
def Body.parts : Body → List Node
  | .select _ leading items sources views condition grouping sorting having windows =>
    leading.map .expr ++ items.map .item ++ sources.map .source ++
      (views ++ condition.toList ++ grouping ++ sorting ++ having.toList ++ windows).map .expr
  | .nested query => [.query query]
  | .values rows => rows.map .expr
  | .table _ => []
  | .combine _ _ left right => [.body left, .body right]
  | .insert _ _ rows others returned =>
    rows.toList.map .query ++ others.map .expr ++ returned.map .item
  | .update target _ given sources condition returned =>
    .source target :: given.map .expr ++ sources.map .source ++
      condition.toList.map .expr ++ returned.map .item

/-- The parts of a source. -/
def Source.parts : Source → List Node
  | .table _ arguments _ _ hints => (arguments ++ hints).map .expr
  | .derived query _ _ => [.query query]
  | .rows parts _ => parts.map .expr
  | .join _ left right condition _ =>
    .source left :: .source right :: condition.toList.map .expr
  | .grouped inner _ => [.source inner]

namespace Node

/-- The parts of a node, in the order in which they are visited. -/
def parts : Node → List Node
  | .query inner => inner.parts
  | .table (.mk _ _ inner) => [.query inner]
  | .body inner => inner.parts
  | .item (.value expression _ _) => [.expr expression]
  | .item .all => []
  | .item (.allOf _) => []
  | .source inner => inner.parts
  | .term (.mk expression _ _) => [.expr expression]
  | .expr inner => inner.parts

/-- What is there in an optional part is smaller than it. -/
theorem sizeOf_lt_of_mem_toList {α : Type} [SizeOf α] {a : α} {found : Option α}
    (here : a ∈ found.toList) : sizeOf a < sizeOf found := by
  cases found with
  | none => cases here
  | some b =>
    cases List.mem_singleton.mp here
    simp

section Sizes

variable {part : Node}

theorem sizeOf_lt_of_mem_expr {inner : Expr} (here : part ∈ inner.parts) :
    sizeOf part < 1 + sizeOf inner := by
  cases inner <;>
    simp only [Expr.parts, List.mem_cons, List.mem_map, List.mem_append, List.not_mem_nil,
      or_false] at here <;>
    grind [→ List.sizeOf_lt_of_mem, → sizeOf_lt_of_mem_toList]

theorem sizeOf_lt_of_mem_query {inner : Query} (here : part ∈ inner.parts) :
    sizeOf part < 1 + sizeOf inner := by
  cases inner
  simp only [Query.parts, List.mem_cons, List.mem_map, List.mem_append] at here
  grind [→ List.sizeOf_lt_of_mem, → sizeOf_lt_of_mem_toList]

theorem sizeOf_lt_of_mem_body {inner : Body} (here : part ∈ inner.parts) :
    sizeOf part < 1 + sizeOf inner := by
  cases inner <;>
    simp only [Body.parts, List.mem_cons, List.mem_map, List.mem_append, List.not_mem_nil,
      or_false] at here <;>
    grind [→ List.sizeOf_lt_of_mem, → sizeOf_lt_of_mem_toList]

theorem sizeOf_lt_of_mem_source {inner : Source} (here : part ∈ inner.parts) :
    sizeOf part < 1 + sizeOf inner := by
  cases inner <;>
    simp only [Source.parts, List.mem_cons, List.mem_map, List.mem_append, List.not_mem_nil,
      or_false] at here <;>
    grind [→ List.sizeOf_lt_of_mem, → sizeOf_lt_of_mem_toList]

/-- A part is smaller than its node. -/
theorem sizeOf_lt_of_mem_parts {node : Node} (here : part ∈ node.parts) :
    sizeOf part < sizeOf node := by
  cases node with
  | query inner => exact sizeOf_lt_of_mem_query here
  | table inner =>
    obtain ⟨name, columns, inner⟩ := inner
    cases List.mem_singleton.mp here
    grind
  | body inner => exact sizeOf_lt_of_mem_body here
  | item inner =>
    cases inner with
    | value expression label written =>
      cases List.mem_singleton.mp here
      grind
    | all => cases here
    | allOf path => cases here
  | source inner => exact sizeOf_lt_of_mem_source here
  | term inner =>
    obtain ⟨expression, descending, nullsFirst⟩ := inner
    cases List.mem_singleton.mp here
    grind
  | expr inner => exact sizeOf_lt_of_mem_expr here

end Sizes

/-- Everything that a visit comes to, in order: a node, then each of its parts with all in it. -/
def visit (node : Node) : List Node :=
  node :: node.parts.attach.flatMap fun ⟨part, _⟩ => part.visit
termination_by node
decreasing_by exact sizeOf_lt_of_mem_parts ‹_›

/-- A visit comes to a node, and then to its parts from left to right. -/
theorem visit_eq (node : Node) : node.visit = node :: node.parts.flatMap visit := by
  rw [visit]
  congr 1
  simp only [List.flatMap_subtype, List.unattach_attach]

/-- What is proved of a node from its parts holds of all nodes. -/
theorem ofParts {motive : Node → Prop}
    (step : ∀ node, (∀ part ∈ node.parts, motive part) → motive node) (node : Node) :
    motive node :=
  step node fun part _ => ofParts step part
termination_by node
decreasing_by exact sizeOf_lt_of_mem_parts ‹_›

/-- A node occurs in another: it is the other, or it occurs in one of its parts. -/
inductive Within (inner : Node) : Node → Prop where
  | here : Within inner inner
  | deeper {part node : Node} (is_part : part ∈ node.parts) (within : Within inner part) :
      Within inner node

/-- A visit comes to what occurs in the node, and to nothing else. -/
theorem mem_visit {inner node : Node} : inner ∈ node.visit ↔ inner.Within node := by
  constructor
  · intro visited
    induction node using ofParts with
    | step node ih =>
      rw [visit_eq, List.mem_cons, List.mem_flatMap] at visited
      obtain rfl | ⟨part, is_part, visited⟩ := visited
      · exact .here
      · exact .deeper is_part (ih part is_part visited)
  · intro within
    induction within with
    | here =>
      rw [visit_eq]
      exact List.mem_cons_self
    | deeper is_part _ visited =>
      rw [visit_eq]
      exact List.mem_cons_of_mem _ (List.mem_flatMap.mpr ⟨_, is_part, visited⟩)

/-! ### Placeholders on the way -/

/-- The name of a placeholder. -/
def placeholder? : Node → Option String
  | .expr (.placeholder name) => some name
  | _ => none

/-- Only an expression can be a placeholder. -/
theorem placeholder?_eq_some {node : Node} {name : String} :
    node.placeholder? = some name ↔ node = .expr (.placeholder name) := by
  cases node with
  | expr inner => cases inner <;> simp [placeholder?]
  | _ => simp [placeholder?]

/-- The placeholders of a node. -/
def placeholders : Node → List String
  | .query inner => inner.placeholders
  | .table inner => CommonTable.placeholdersOf [inner]
  | .body inner => inner.placeholders
  | .item inner => Item.placeholdersOf [inner]
  | .source inner => inner.placeholders
  | .term inner => OrderTerm.placeholdersOf [inner]
  | .expr inner => inner.placeholders

section Rows

@[simp] theorem placeholders_exprs (items : List Expr) :
    (items.map expr).flatMap placeholders = Expr.placeholdersOf items := by
  rw [Expr.placeholdersOf_eq, List.flatMap_map]
  rfl

@[simp] theorem placeholders_tables (tables : List CommonTable) :
    (tables.map table).flatMap placeholders = CommonTable.placeholdersOf tables := by
  rw [CommonTable.placeholdersOf_eq, List.flatMap_map]
  rfl

@[simp] theorem placeholders_items (items : List Item) :
    (items.map item).flatMap placeholders = Item.placeholdersOf items := by
  rw [Item.placeholdersOf_eq, List.flatMap_map]
  rfl

@[simp] theorem placeholders_sources (sources : List Source) :
    (sources.map source).flatMap placeholders = Source.placeholdersOf sources := by
  rw [Source.placeholdersOf_eq, List.flatMap_map]
  rfl

@[simp] theorem placeholders_terms (terms : List OrderTerm) :
    (terms.map term).flatMap placeholders = OrderTerm.placeholdersOf terms := by
  rw [OrderTerm.placeholdersOf_eq, List.flatMap_map]
  congr 1
  funext ⟨expression, descending, nullsFirst⟩
  simp [placeholders, Parse.orderedBy]

@[simp] theorem placeholders_optional (found : Option Query) :
    (found.toList.map query).flatMap placeholders = Query.placeholdersIn found := by
  cases found <;> simp [placeholders]

end Rows

/-- The placeholders of a node, part by part. -/
theorem placeholders_parts (node : Node) :
    node.placeholders = node.placeholder?.toList ++ node.parts.flatMap placeholders := by
  cases node with
  | query inner =>
    cases inner
    simp [placeholder?, placeholders, parts, Query.parts, -List.map_append]
  | table inner =>
    cases inner
    simp [placeholder?, placeholders, parts]
  | body inner =>
    cases inner <;> simp [placeholder?, placeholders, parts, Body.parts, -List.map_append]
  | item inner => cases inner <;> simp [placeholder?, placeholders, parts]
  | source inner =>
    cases inner <;> simp [placeholder?, placeholders, parts, Source.parts, -List.map_append]
  | term inner =>
    cases inner
    simp [placeholder?, placeholders, parts]
  | expr inner =>
    cases inner <;> simp [placeholder?, placeholders, parts, Expr.parts, -List.map_append]

/-- A visit comes to the placeholders of a node one after another. -/
theorem placeholders_eq (node : Node) : node.placeholders = node.visit.filterMap placeholder? := by
  induction node using ofParts with
  | step node ih =>
    rw [placeholders_parts, visit_eq, ← List.singleton_append, List.filterMap_append,
      List.filterMap_flatMap, List.flatMap_congr ih]
    congr 1

/-- The names are those of the placeholders within the node, at any depth. -/
theorem mem_placeholders (node : Node) {name : String} :
    name ∈ node.placeholders ↔ (expr (.placeholder name)).Within node := by
  rw [placeholders_eq, List.mem_filterMap, ← mem_visit]
  simp only [placeholder?_eq_some, exists_eq_right]

end Node

/-! ### The collection and its early end -/

/-- Keeps names in a row. -/
def noteAll : List String → Collector
  | [] => pure
  | head :: tail => note head >=> noteAll tail

@[simp] theorem some_fish (next : Collector) : (some >=> next) = next := fish_pipe next

@[simp] theorem fish_some (first : Collector) : (first >=> some) = first := fish_pure first

/-- Names are noted one after another. -/
theorem noteAll_append (front later : List String) :
    noteAll (front ++ later) = noteAll front >=> noteAll later := by
  induction front with
  | nil => exact (some_fish _).symm
  | cons head front ih => rw [List.cons_append, noteAll, noteAll, ih, fish_assoc]

/-- A name is added at the end, if it is not there. -/
theorem eraseDups_concat (names : List String) (last : String) :
    (names ++ [last]).eraseDups =
      if last ∈ names then names.eraseDups else names.eraseDups ++ [last] := by
  rw [List.eraseDups_append]
  split
  · simp_all [List.removeAll]
  · simp_all [List.removeAll, List.eraseDups_cons]

/-- Of names in a row each is kept where it comes first, unless one of them ends it all. -/
theorem noteAll_eq (names : List String) : noteAll names [] =
    if names.any isPositional then none else some names.eraseDups := by
  induction names using List.reverseRecOn with
  | nil => rfl
  | append_singleton names last ih =>
    rw [noteAll_append, List.any_append, eraseDups_concat]
    change (noteAll names []).bind (noteAll [last]) = _
    rw [ih]
    by_cases positional : names.any isPositional
    · simp [positional]
    · simp [positional, noteAll, note]

namespace Node

/-- Collects from a node. -/
def collect : Node → Collector
  | .query inner => inner.collect
  | .table inner => CommonTable.collectAll [inner]
  | .body inner => inner.collect
  | .item inner => Item.collectAll [inner]
  | .source inner => inner.collect
  | .term inner => OrderTerm.collectAll [inner]
  | .expr inner => inner.collect

/-- Collects from nodes in a row. -/
def collectAll : List Node → Collector
  | [] => pure
  | head :: tail => head.collect >=> collectAll tail

/-- Collects at a node itself. -/
def enter (node : Node) : Collector :=
  match node.placeholder? with
  | some name => note name
  | none => pure

/-- Nodes are visited one after another. -/
@[simp] theorem collectAll_append (front later : List Node) :
    collectAll (front ++ later) = collectAll front >=> collectAll later := by
  induction front with
  | nil => exact (some_fish _).symm
  | cons head front ih => rw [List.cons_append, collectAll, collectAll, ih, fish_assoc]

attribute [simp] Expr.collect Expr.collectAll Expr.collectIn Query.collect Query.collectIn
  CommonTable.collectAll Body.collect Item.collectAll Source.collect Source.collectAll
  OrderTerm.collectAll fish_assoc

section Rows

/-- A visit of expressions in a row is the one of the tree. -/
@[simp] theorem collectAll_exprs (items : List Expr) :
    collectAll (items.map expr) = Expr.collectAll items := by
  induction items with
  | nil => rfl
  | cons head tail ih => simp [collectAll, collect, ih]

@[simp] theorem collectAll_tables (tables : List CommonTable) :
    collectAll (tables.map table) = CommonTable.collectAll tables := by
  induction tables with
  | nil => rfl
  | cons head tail ih =>
    cases head
    simp [collectAll, collect, ih]

@[simp] theorem collectAll_items (items : List Item) :
    collectAll (items.map item) = Item.collectAll items := by
  induction items with
  | nil => rfl
  | cons head tail ih => cases head <;> simp [collectAll, collect, ih]

@[simp] theorem collectAll_sources (sources : List Source) :
    collectAll (sources.map source) = Source.collectAll sources := by
  induction sources with
  | nil => rfl
  | cons head tail ih => simp [collectAll, collect, ih]

@[simp] theorem collectAll_terms (terms : List OrderTerm) :
    collectAll (terms.map term) = OrderTerm.collectAll terms := by
  induction terms with
  | nil => rfl
  | cons head tail ih =>
    cases head
    simp [collectAll, collect, ih]

@[simp] theorem collectAll_optional (found : Option Query) :
    collectAll (found.toList.map query) = Query.collectIn found := by
  cases found <;> simp [collectAll, collect]

@[simp] theorem collectAll_found (found : Option Expr) :
    Expr.collectAll found.toList = Expr.collectIn found := by
  cases found <;> simp

@[simp] theorem exprs_append (front later : List Expr) :
    Expr.collectAll (front ++ later) = Expr.collectAll front >=> Expr.collectAll later := by
  rw [← collectAll_exprs, List.map_append, collectAll_append, collectAll_exprs, collectAll_exprs]

end Rows

/-- A node is entered, and then its parts are visited. -/
theorem collect_parts (node : Node) : node.collect = node.enter >=> collectAll node.parts := by
  cases node with
  | query inner =>
    cases inner
    simp [enter, placeholder?, collect, collectAll, parts, Query.parts, -List.map_append]
  | table inner =>
    cases inner
    simp [enter, placeholder?, collect, collectAll, parts]
  | body inner =>
    cases inner <;>
      simp [enter, placeholder?, collect, collectAll, parts, Body.parts, -List.map_append]
  | item inner => cases inner <;> simp [enter, placeholder?, collect, collectAll, parts]
  | source inner =>
    cases inner <;>
      simp [enter, placeholder?, collect, collectAll, parts, Source.parts, -List.map_append]
  | term inner =>
    cases inner
    simp [enter, placeholder?, collect, collectAll, parts]
  | expr inner =>
    cases inner <;>
      simp [enter, placeholder?, collect, collectAll, parts, Expr.parts, -List.map_append]

/-- The collection keeps the placeholders of a node one after another. -/
theorem collect_eq (node : Node) : node.collect = noteAll node.placeholders := by
  induction node using ofParts with
  | step node ih =>
    have entered : node.enter = noteAll node.placeholder?.toList := by
      rw [enter]
      cases node.placeholder? with
      | none => rfl
      | some name => exact (fish_some _).symm
    have visited (parts : List Node)
        (own : ∀ part ∈ parts, part.collect = noteAll part.placeholders) :
        collectAll parts = noteAll (parts.flatMap placeholders) := by
      induction parts with
      | nil => rfl
      | cons head tail rest =>
        obtain ⟨first, others⟩ := List.forall_mem_cons.mp own
        rw [collectAll, List.flatMap_cons, noteAll_append, first, rest others]
    rw [collect_parts, placeholders_parts, noteAll_append, entered, visited _ ih]

end Node

/-- The collection breaks off at a placeholder without a name, wherever it is; otherwise it has each
name once. -/
theorem Statement.collect_eq (statement : Statement) : statement.collect [] =
    if statement.placeholders.any isPositional then none
    else some statement.placeholders.eraseDups := by
  cases statement with
  | query tree => exact (congrFun (Node.collect_eq (.query tree)) []).trans (noteAll_eq _)
  | _ => rfl

end GridReport.Sql
