import GridReport.Proofs.Binding

/-!
The check of a text told by a visit of its tree.

* `Query.Lists` — the list of the names in a tree, in the order of the visit; there is only one.
* `ofText_decides` — the texts that are accepted, their placeholders, and the refusal of any other.
-/

namespace GridReport.Sql

/-! ### The order of the names -/

/-- No name is listed twice. -/
theorem nodup_eraseDups (names : List String) : names.eraseDups.Nodup := by
  induction names using List.reverseRecOn with
  | nil => exact .nil
  | append_singleton names last ih =>
    rw [eraseDups_concat]
    split
    · exact ih
    · rename_i fresh
      refine List.nodup_append.mpr ⟨ih, List.pairwise_singleton _ last, ?_⟩
      rintro a here b last_is rfl
      cases List.mem_singleton.mp last_is
      exact fresh (List.mem_eraseDups.mp here)

/-- Names that are kept where they come first stand in the order in which they come. -/
theorem pairwise_eraseDups (names : List String) : names.eraseDups.Pairwise fun a b =>
    ∀ front later, names = front ++ b :: later → a ∈ front := by
  induction names using List.reverseRecOn with
  | nil => exact .nil
  | append_singleton names last ih =>
    -- a name comes at the end, or it has come before
    have before {a b : String} (among : a ∈ names)
        (earlier : ∀ front later, names = front ++ b :: later → a ∈ front) :
        ∀ front later, names ++ [last] = front ++ b :: later → a ∈ front := by
      intro front later comes
      cases later using List.reverseRecOn with
      | nil => rwa [← List.append_inj_left' comes rfl]
      | append_singleton later final =>
        have comes : names ++ [last] = (front ++ b :: later) ++ [final] := by simpa using comes
        exact earlier front later (List.append_inj_left' comes rfl)
    have old := ih.imp_of_mem fun {a b} here _ earlier =>
      before (List.mem_eraseDups.mp here) earlier
    rw [eraseDups_concat]
    split
    · exact old
    · rename_i fresh
      refine List.pairwise_append.mpr ⟨old, List.pairwise_singleton _ _, ?_⟩
      intro a here b last_is
      cases List.mem_singleton.mp last_is
      refine before (List.mem_eraseDups.mp here) fun front later comes => ?_
      exact absurd (by simp [comes]) fresh

/-- Wherever a visit of the node comes to the placeholder `b`, it has come to `a` before. -/
def Node.ComesFirst (node : Node) (a b : String) : Prop :=
  ∀ front later, node.visit = front ++ .expr (.placeholder b) :: later →
    .expr (.placeholder a) ∈ front

/-- The names are those of the placeholders in the tree of a query, each of them once, in the order
in which a visit first comes to them. -/
structure Query.Lists (tree : Query) (names : List String) : Prop where
  nodup : names.Nodup
  mem_iff (name : String) : name ∈ names ↔ (Node.expr (.placeholder name)).Within (.query tree)
  ordered : names.Pairwise (Node.query tree).ComesFirst

theorem Query.lists_placeholders (tree : Query) : tree.Lists tree.placeholders.eraseDups where
  nodup := nodup_eraseDups _
  mem_iff _ := List.mem_eraseDups.trans (Node.mem_placeholders (.query tree))
  ordered := by
    refine (pairwise_eraseDups tree.placeholders).imp fun {a b} earlier front later comes => ?_
    have visited := Node.placeholders_eq (.query tree)
    have named_b : (Node.expr (.placeholder b)).placeholder? = some b := rfl
    rw [comes, List.filterMap_append, List.filterMap_cons_some named_b] at visited
    obtain ⟨node, here, named⟩ := List.mem_filterMap.mp (earlier _ _ visited)
    rwa [← Node.placeholder?_eq_some.mp named]

/-- There is no other such list. -/
theorem Query.Lists.unique {tree : Query} {names others : List String} (lists : tree.Lists names)
    (too : tree.Lists others) : names = others := by
  refine List.Perm.eq_of_pairwise ?antisymm lists.ordered too.ordered ?perm
  case perm =>
    refine (List.perm_ext_iff_of_nodup lists.nodup too.nodup).mpr fun name => ?_
    rw [lists.mem_iff, too.mem_iff]
  case antisymm =>
    -- where the first `a` comes, `b` has come before, and an `a` before that
    intro a b here _ a_first b_first
    have visited := Node.mem_visit.mpr ((lists.mem_iff a).mp here)
    obtain ⟨front, later, comes, no_a⟩ := List.eq_append_cons_of_mem visited
    obtain ⟨front', later', comes', -⟩ := List.eq_append_cons_of_mem (b_first front later comes)
    have again := a_first front' (later' ++ Node.expr (.placeholder a) :: later) (by
      rw [comes, comes', List.append_assoc, List.cons_append])
    exact absurd (by simp [comes', again]) no_a

/-! ### The check of a text -/

/-- A placeholder without a name starts with a question mark or a dollar sign. -/
def Unnamed (placeholder : String) : Prop :=
  placeholder.toList.head? = some '?' ∨ placeholder.toList.head? = some '$'

/-- The names that are refused start with a question mark or a dollar sign. -/
theorem isPositional_iff {placeholder : String} :
    isPositional placeholder ↔ Unnamed placeholder := by
  rw [isPositional, Bool.or_eq_true, String.startsWith_string_iff, String.startsWith_string_iff,
    Unnamed]
  cases placeholder.toList with
  | nil => simp
  | cons head tail => simp [eq_comm]

/-- All placeholders in the tree of a query have names. -/
def Query.AllNamed (tree : Query) : Prop :=
  ∀ name, (Node.expr (.placeholder name)).Within (.query tree) → ¬Unnamed name

/-- The collector ends its visit early exactly at a placeholder without a name. -/
theorem Query.allNamed_iff {tree : Query} :
    tree.AllNamed ↔ tree.placeholders.any isPositional = false := by
  rw [List.any_eq_false]
  constructor
  · intro named name here
    rw [isPositional_iff]
    exact named name ((Node.mem_placeholders (.query tree)).mp here)
  · intro named name within
    rw [← isPositional_iff]
    exact named name ((Node.mem_placeholders (.query tree)).mpr within)

/-- Of the statements of a text only a query reads. -/
theorem select_iff {text : String} {statement : Statement}
    (parsed : parse .checking text = .ok [statement]) :
    statement.kind = .select ↔ ∃ tree, statement = .query tree := by
  constructor
  · intro select
    obtain ⟨mid, taken⟩ := Parse.parse_cons parsed
    obtain ⟨tree, is, -, -⟩ := Parse.statement_reads taken select
    exact ⟨tree, is⟩
  · rintro ⟨tree, rfl⟩
    rfl

namespace ReadQuery

/-- Why a text is refused. What is asked first counts: whether it can be parsed, how many statements
it holds, of what kind the only one is, and last of all how its placeholders are written. -/
inductive Refused (text : String) : QueryCause → Prop where
  | unparsable {left : Option Lexeme} (syntax_error : parse .checking text = .error left) :
    Refused text (.unparsable text)
  | noStatement (empty : parse .checking text = .ok []) : Refused text .noStatement
  | severalStatements {all : List Statement} (parsed : parse .checking text = .ok all)
      (several : 2 ≤ all.length) : Refused text (.severalStatements text all.length)
  | notSelect {statement : Statement} (parsed : parse .checking text = .ok [statement])
      (other : ∀ tree, statement ≠ .query tree) : Refused text (.notSelect text statement.kind)
  | positional {tree : Query} (parsed : parse .checking text = .ok [.query tree])
      (unnamed : ¬tree.AllNamed) : Refused text (.positional text)

variable {text : String}

/-- A text that is read is judged by its statements. -/
theorem ofText_of_parsed {all : List Statement} (parsed : parse .checking text = .ok all) :
    ofText text = ofStatements text all := by
  rw [ofText, parsed]

/-- A query is accepted with the list of its placeholders if all of them have names. -/
theorem ofText_query {tree : Query} (parsed : parse .checking text = .ok [.query tree]) :
    (tree.AllNamed → ofText text = .ok ⟨Text.trim text, tree.placeholders.eraseDups⟩) ∧
      (¬tree.AllNamed → ofText text = .error (.positional text)) := by
  have select : (Statement.query tree).kind = .select := rfl
  rw [ofText_of_parsed parsed, ofStatements_select select, Statement.placeholders,
    Query.allNamed_iff, Bool.not_eq_false]
  constructor
  · intro named
    simp only [named, Bool.false_eq_true, if_false]
  · intro positional
    simp only [positional, if_true]

/-- A text is accepted exactly if it is one query whose placeholders all have names. -/
theorem ofText_eq_ok_iff {query : ReadQuery} : ofText text = .ok query ↔
    ∃ tree, parse .checking text = .ok [.query tree] ∧ tree.AllNamed ∧
      query.sql = Text.trim text ∧ tree.Lists query.placeholders := by
  constructor
  · intro accepted
    obtain ⟨statement, parsed, select, unmarked, rfl⟩ := ofText_eq_ok accepted
    obtain ⟨tree, rfl⟩ := (select_iff parsed).mp select
    refine ⟨tree, parsed, Query.allNamed_iff.mpr ?_, rfl, tree.lists_placeholders⟩
    simpa [Statement.placeholders] using unmarked
  · rintro ⟨tree, parsed, named, sql_is, lists⟩
    rw [(ofText_query parsed).1 named, ← sql_is, tree.lists_placeholders.unique lists]

/-- A single statement is refused for its kind or for how its placeholders are written. -/
theorem refused_of_single {statement : Statement} {cause : QueryCause}
    (parsed : parse .checking text = .ok [statement]) (refused : ofText text = .error cause) :
    Refused text cause := by
  by_cases select : statement.kind = .select
  · obtain ⟨tree, rfl⟩ := (select_iff parsed).mp select
    by_cases named : tree.AllNamed
    · cases ((ofText_query parsed).1 named).symm.trans refused
    · cases ((ofText_query parsed).2 named).symm.trans refused
      exact .positional parsed named
  · rw [ofText_of_parsed parsed, ofStatements, if_neg select] at refused
    cases refused
    exact .notSelect parsed fun tree is => select ((select_iff parsed).mpr ⟨tree, is⟩)

/-- The cause of a refusal is the first that applies, and there is only one. -/
theorem ofText_eq_error_iff {cause : QueryCause} :
    ofText text = .error cause ↔ Refused text cause := by
  constructor
  · intro refused
    cases parsed : parse .checking text with
    | error left =>
      rw [ofText, parsed] at refused
      cases refused
      exact .unparsable parsed
    | ok all =>
      rcases all with _ | ⟨statement, _ | ⟨second, others⟩⟩
      · rw [ofText_of_parsed parsed] at refused
        cases refused
        exact .noStatement parsed
      · exact refused_of_single parsed refused
      · rw [ofText_of_parsed parsed] at refused
        cases refused
        exact .severalStatements parsed (by simp)
  · intro refused
    cases refused with
    | unparsable syntax_error => rw [ofText, syntax_error]
    | noStatement empty => rw [ofText_of_parsed empty, ofStatements]
    | @severalStatements all parsed several =>
      rw [ofText_of_parsed parsed]
      rcases all with _ | ⟨first, _ | ⟨second, others⟩⟩
      · cases several
      · exact absurd several (by simp)
      · rfl
    | notSelect parsed other =>
      have unread : _ ≠ StatementKind.select := fun select =>
        (select_iff parsed).mp select |>.elim other
      rw [ofText_of_parsed parsed, ofStatements, if_neg unread]
    | positional parsed unnamed => exact (ofText_query parsed).2 unnamed

/-- A text is accepted exactly if it is one query in whose tree all placeholders have names. Its
list has the name of each placeholder in the tree once, in the order of the visit; any other text is
refused for the first reason there is. -/
theorem ofText_decides (text : String) :
    ((∃ query, ofText text = .ok query) ↔
      ∃ tree, parse .checking text = .ok [.query tree] ∧ tree.AllNamed) ∧
    (∀ query, ofText text = .ok query ↔
      ∃ tree, parse .checking text = .ok [.query tree] ∧ tree.AllNamed ∧
        query.sql = Text.trim text ∧ tree.Lists query.placeholders) ∧
    ∀ cause, ofText text = .error cause ↔ Refused text cause := by
  refine ⟨⟨?accepted, ?accepts⟩, fun query => ofText_eq_ok_iff, fun cause => ofText_eq_error_iff⟩
  case accepted =>
    rintro ⟨query, accepted⟩
    obtain ⟨tree, parsed, named, -, -⟩ := ofText_eq_ok_iff.mp accepted
    exact ⟨tree, parsed, named⟩
  case accepts =>
    rintro ⟨tree, parsed, named⟩
    exact ⟨_, (ofText_query parsed).1 named⟩

/-- A placeholder without a name is told although there has been one with a name before it. -/
example : ofText "SELECT filesize FROM Files WHERE createdAt > :since AND id = ?" =
    .error (.positional "SELECT filesize FROM Files WHERE createdAt > :since AND id = ?") := by
  decide +kernel

end ReadQuery

end GridReport.Sql
