import GridReport.Proofs.KeptTexts
import GridReport.Proofs.VisitedTrees
import GridReport.Session

/-!
Which parameters of a query have a value when it is run.

A text is read twice: to be checked, which collects its placeholders, and by the database, which
takes its parameters from its own pieces of the text. A parameter without a value counts as nothing
and raises no error, so both readings must find the same names.

* `ofText_eq_ok` — what the check of a text has found out.
* `checkParameters_eq_ok`, `isSome_lookup_bindings` — the values that pass, and what they bind.
* `binds_all_iff` — the parameters of an accepted text have values exactly if both readings find the
  same names.
* `unbound_dollar_parameter` — a text where they do not.
-/

namespace GridReport

namespace Sql.ReadQuery

/-- A single query is accepted if the collection of its placeholders comes to its end. -/
theorem ofStatements_select {statement : Statement} (select : statement.kind = .select)
    (text : String) : ofStatements text [statement] =
      if statement.placeholders.any isPositional then .error (.positional text)
      else .ok ⟨Text.trim text, statement.placeholders.eraseDups⟩ := by
  rw [ofStatements, if_pos select, statement.collect_eq]
  cases statement.placeholders.any isPositional <;> rfl

/-- An accepted text is one query, and its placeholders have names. -/
theorem ofText_eq_ok {text : String} {query : ReadQuery} (accepted : ofText text = .ok query) :
    ∃ statement, parse .checking text = .ok [statement] ∧ statement.kind = .select ∧
      (∀ name ∈ statement.placeholders, isPositional name = false) ∧
      query = ⟨Text.trim text, statement.placeholders.eraseDups⟩ := by
  rw [ofText] at accepted
  split at accepted
  · cases accepted
  · rename_i statements parsed
    match statements, parsed, accepted with
    | [statement], parsed, accepted =>
      by_cases select : statement.kind = .select
      · rw [ofStatements_select select] at accepted
        split at accepted
        · cases accepted
        · rename_i named
          cases accepted
          exact ⟨statement, parsed, select, by simpa using named, rfl⟩
      · rw [ofStatements, if_neg select] at accepted
        cases accepted

/-- The placeholders that need a value are those of the statement. -/
theorem mem_placeholders_ofText {text : String} {query : ReadQuery}
    (accepted : ofText text = .ok query) {statement : Statement}
    (parsed : parse .checking text = .ok [statement]) {name : String} :
    name ∈ query.placeholders ↔ name ∈ statement.placeholders := by
  obtain ⟨found, parsed', -, -, rfl⟩ := ofText_eq_ok accepted
  cases parsed.symm.trans parsed'
  exact List.mem_eraseDups

end Sql.ReadQuery

namespace Session

variable {query : Sql.ReadQuery} {parameters : List Parameter}

/-- Parameters pass if they give a value to every placeholder and to nothing else. -/
theorem checkParameters_eq_ok :
    checkParameters query parameters = .ok () ↔
      ∀ name, name ∈ query.placeholders ↔ name ∈ parameters.map Parameter.name := by
  rw [checkParameters]
  constructor
  · intro passes
    split at passes
    · cases passes
    · rename_i all_given
      split at passes
      · cases passes
      · rename_i all_used
        rw [List.find?_eq_none] at all_given all_used
        refine fun name => ⟨fun here => ?_, fun here => ?_⟩
        · simpa using all_given name here
        · simpa using all_used name here
  · intro same
    have all_given : (query.placeholders.find? fun name =>
        !(parameters.map Parameter.name).contains name) = none := by
      rw [List.find?_eq_none]
      intro name here
      simpa using (same name).mp here
    have all_used : ((parameters.map Parameter.name).find? fun name =>
        !query.placeholders.contains name) = none := by
      rw [List.find?_eq_none]
      intro name here
      simpa using (same name).mpr here
    simp only [all_given, all_used]

/-- A name is bound exactly if a value is given for it. -/
theorem isSome_lookup_bindings {name : String} :
    ((bindings parameters).lookup name).isSome ↔ name ∈ parameters.map Parameter.name := by
  have keys : (bindings parameters).map Prod.fst = (parameters.map Parameter.name).reverse := by
    simp [bindings, Function.comp_def]
  rw [← List.mem_reverse, ← keys, List.lookup_isSome_iff]
  simp [@eq_comm _ name]

/-- Of an accepted text that the check reads to its end, just the placeholders that are written in
it are bound. So all parameters that the database finds in it have a value exactly if it finds no
others than the check does. -/
theorem binds_all_iff {text : String} (accepted : Sql.ReadQuery.ofText text = .ok query)
    (whole : Sql.ReadsWhole text) (passes : checkParameters query parameters = .ok ()) :
    (∀ name ∈ Sql.written (Sql.tokens text), Sql.isPositional name = false) ∧
      (∀ name, ((bindings parameters).lookup name).isSome ↔
        name ∈ Sql.written (Sql.tokens text)) ∧
      ((∀ name ∈ Store.Marks.parameters query.sql, ((bindings parameters).lookup name).isSome) ↔
        Store.Marks.parameters query.sql ⊆ Sql.written (Sql.tokens text)) := by
  obtain ⟨statement, parsed, select, named, -⟩ := Sql.ReadQuery.ofText_eq_ok accepted
  have collected (name : String) :
      name ∈ statement.placeholders ↔ name ∈ Sql.written (Sql.tokens text) :=
    whole.mem_placeholders parsed select
  have bound (name : String) : ((bindings parameters).lookup name).isSome ↔
      name ∈ Sql.written (Sql.tokens text) := by
    rw [isSome_lookup_bindings, ← checkParameters_eq_ok.mp passes,
      Sql.ReadQuery.mem_placeholders_ofText accepted parsed, collected]
  refine ⟨fun name here => named name ((collected name).mpr here), bound, ?_⟩
  exact forall₂_congr fun name _ => bound name

theorem binds_all_iff_since :
    let text := "SELECT filesize FROM Files WHERE createdAt < :since"
    let given : List Parameter := [⟨":since", .integer 5⟩]
    Sql.ReadQuery.ofText text = .ok ⟨text, [":since"]⟩ ∧ Sql.ReadsWhole text ∧
      checkParameters ⟨text, [":since"]⟩ given = .ok () ∧
      ∀ name ∈ Store.Marks.parameters text, ((bindings given).lookup name).isSome := by
  intro text given
  have accepted : Sql.ReadQuery.ofText text = .ok ⟨text, [":since"]⟩ := by decide +kernel
  have whole : Sql.ReadsWhole text := ⟨by decide +kernel, by decide +kernel⟩
  have passes : checkParameters ⟨text, [":since"]⟩ given = .ok () := by decide +kernel
  obtain ⟨-, -, binds⟩ := binds_all_iff accepted whole passes
  exact ⟨accepted, whole, passes, binds.mpr (by decide +kernel)⟩

/-- A dollar sign starts a name for the check and a parameter for the database: the text needs no
value, and the run compares with nothing and finds no row. -/
theorem unbound_dollar_parameter :
    let text := "SELECT filesize FROM Files WHERE createdAt < $limit"
    let files : Store.Table :=
      ⟨"Files", ["id", "createdAt", "filesize"].map (⟨·, .numeric⟩), 0,
        [⟨1, [.integer 1, .integer 0, .integer 10]⟩]⟩
    Sql.ReadQuery.ofText text = .ok ⟨text, []⟩ ∧ checkParameters ⟨text, []⟩ [] = .ok () ∧
      "$limit" ∈ Store.Marks.parameters text ∧ (bindings []).lookup "$limit" = none ∧
      ((queryValues (.ofMemory ⟨[files]⟩) .empty ⟨text, []⟩ []).answer.toOption.map
        fun found => (found.values.length, found.skipped)) = some (0, 0) := by
  decide +kernel

end Session

end GridReport
