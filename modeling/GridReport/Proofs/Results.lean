import Mathlib.Data.List.Forall2

/-!
Steps that may be refused, one after another.

* `except_bind_eq_ok` — two steps succeed if both do.
* `mapM_eq_ok_iff`, `mapM_eq_error_iff` — a step for each item of a list: all results, or the first
  refusal.
* `mapM_ok_iff`, `mapM_eq_map` — when all succeed.
-/

namespace GridReport

variable {α β ε : Type}

/-- Of two steps that may be refused, both succeed. -/
theorem except_bind_eq_ok {step : Except ε α} {next : α → Except ε β} {b : β} :
    step >>= next = .ok b ↔ ∃ a, step = .ok a ∧ next a = .ok b := by
  cases step with
  | error refused => simp [bind, Except.bind]
  | ok a => simp [bind, Except.bind]

section Items

variable {step : α → Except ε β}

/-- Steps that all succeed give one result for each item, in the order of the items. -/
theorem mapM_eq_ok_iff {items : List α} {results : List β} : items.mapM step = .ok results ↔
    List.Forall₂ (fun item result => step item = .ok result) items results := by
  induction items generalizing results with
  | nil =>
      rw [List.forall₂_nil_left_iff, List.mapM_nil]
      exact ⟨fun done => (Except.ok.inj done).symm, fun none_left => congrArg _ none_left.symm⟩
  | cons item rest ih =>
      rw [List.mapM_cons, List.forall₂_cons_left_iff, except_bind_eq_ok]
      constructor
      · rintro ⟨result, first, done⟩
        obtain ⟨others, later, all⟩ := except_bind_eq_ok.mp done
        cases all
        exact ⟨result, others, first, ih.mp later, rfl⟩
      · rintro ⟨result, others, first, later, rfl⟩
        exact ⟨result, first, except_bind_eq_ok.mpr ⟨others, ih.mpr later, rfl⟩⟩

/-- A step that is refused stops all of them, if those in front of it succeed. -/
theorem mapM_stops {front back : List α} {item : α} {error : ε}
    (passed : ∀ other ∈ front, ∃ result, step other = .ok result)
    (stopped : step item = .error error) :
    (front ++ item :: back).mapM step = .error error := by
  induction front with
  | nil =>
      rw [List.nil_append, List.mapM_cons, stopped]
      rfl
  | cons head front ih =>
      obtain ⟨⟨result, first⟩, later⟩ := List.forall_mem_cons.mp passed
      rw [List.cons_append, List.mapM_cons, first, ih later]
      rfl

/-- The first step that is refused decides. -/
theorem mapM_eq_error_iff {items : List α} {error : ε} : items.mapM step = .error error ↔
    ∃ front item back, items = front ++ item :: back ∧
      (∀ other ∈ front, ∃ result, step other = .ok result) ∧ step item = .error error := by
  constructor
  · intro stopped
    induction items with
    | nil => cases stopped
    | cons item rest ih =>
        rw [List.mapM_cons] at stopped
        cases first : step item with
        | error found =>
            rw [first] at stopped
            cases stopped
            exact ⟨[], item, rest, rfl, List.forall_mem_nil _, first⟩
        | ok result =>
            cases later : rest.mapM step with
            | error found =>
                rw [first, later] at stopped
                cases stopped
                obtain ⟨front, other, back, rfl, passed, failed⟩ := ih later
                exact ⟨item :: front, other, back, rfl,
                  List.forall_mem_cons.mpr ⟨⟨result, first⟩, passed⟩, failed⟩
            | ok results =>
                rw [first, later] at stopped
                cases stopped
  · rintro ⟨front, item, back, rfl, passed, stopped⟩
    exact mapM_stops passed stopped

/-- A run that stops has stopped at one of its items. -/
theorem mapM_eq_error {items : List α} {error : ε} (stopped : items.mapM step = .error error) :
    ∃ item ∈ items, step item = .error error := by
  obtain ⟨front, item, back, rfl, -, failed⟩ := mapM_eq_error_iff.mp stopped
  exact ⟨item, by simp, failed⟩

/-- A run that does not stop gives one result for each item. -/
theorem mapM_eq_ok {items : List α} {results : List β} (done : items.mapM step = .ok results) :
    results.length = items.length ∧ ∀ item ∈ items, ∃ result, step item = .ok result := by
  have each := mapM_eq_ok_iff.mp done
  refine ⟨each.length_eq.symm, ?_⟩
  clear done
  induction each with
  | nil => exact List.forall_mem_nil _
  | cons first _ ih => exact List.forall_mem_cons.mpr ⟨⟨_, first⟩, ih⟩

/-- It does not stop exactly if it stops at no item. -/
theorem mapM_ok_iff {items : List α} :
    (∃ results, items.mapM step = .ok results) ↔
      ∀ item ∈ items, ∃ result, step item = .ok result := by
  refine ⟨fun ⟨_, done⟩ => (mapM_eq_ok done).2, fun each => ?_⟩
  cases stopped : items.mapM step with
  | ok results => exact ⟨results, rfl⟩
  | error error =>
      obtain ⟨item, here, failed⟩ := mapM_eq_error stopped
      obtain ⟨result, done⟩ := each item here
      rw [failed] at done
      cases done

/-- Steps that all succeed give their results in the order of the items. -/
theorem mapM_eq_map {items : List α} {result : α → β}
    (each : ∀ item ∈ items, step item = .ok (result item)) :
    items.mapM step = .ok (items.map result) := by
  induction items with
  | nil => rfl
  | cons item rest ih =>
      obtain ⟨first, later⟩ := List.forall_mem_cons.mp each
      rw [List.mapM_cons, first, ih later]
      rfl

end Items

end GridReport
