import GridReport.Engine
import GridReport.Proofs.Results

/-!
Answers of the database, read row by row.

Reading stops at the first row that does not fit, or else at the fault that comes after the rows. So
what is read is told by the rows and the fault alone, and what is left is what the engine left at
one of its steps.

* `readAll_eq_ok` — when all rows are read.
* `readAll_eq_error` — the fault that is told.
* `readAll_keeps` — what the engine keeps at each step is kept.
-/

namespace GridReport.Store.Answer

variable {World α : Type}

/-- The rows with the names of their columns. -/
def namedRows (answer : Answer World) (columns : List String) : List NamedRow :=
  answer.rows.map fun row => ⟨columns, row.1⟩

variable {answer : Answer World} {columns : List String} {read : NamedRow → Except Fault α}

/-- Reading row by row gives the records up to the first misfit, or the fault behind the rows. -/
theorem readFrom_eq (rows : List (List Cell × World)) :
    (readAll.readFrom answer columns read rows).1 =
      ((rows.map fun row => NamedRow.mk columns row.1).mapM read >>= fun records =>
        match answer.fault? with
        | none => .ok records
        | some fault => .error fault) := by
  induction rows with
  | nil =>
    rw [readAll.readFrom]
    cases answer.fault? <;> rfl
  | cons row rest ih =>
    obtain ⟨cells, left⟩ := row
    rw [readAll.readFrom, List.map_cons, List.mapM_cons]
    cases first : read ⟨columns, cells⟩ with
    | error fault => rfl
    | ok record =>
      dsimp only
      rw [ih]
      cases (rest.map fun row => NamedRow.mk columns row.1).mapM read with
      | error fault => rfl
      | ok records => cases answer.fault? <;> rfl

/-- All rows are read from the first one on. -/
theorem readAll_eq : (answer.readAll columns read).1 =
    ((answer.namedRows columns).mapM read >>= fun records =>
      match answer.fault? with
      | none => .ok records
      | some fault => .error fault) :=
  readFrom_eq answer.rows

/-- All rows are read if each of them fits and no fault comes after them. -/
theorem readAll_eq_ok {records : List α} : (answer.readAll columns read).1 = .ok records ↔
    List.Forall₂ (fun row record => read row = .ok record) (answer.namedRows columns) records ∧
      answer.fault? = none := by
  rw [readAll_eq, except_bind_eq_ok]
  constructor
  · rintro ⟨found, each, ended⟩
    cases last : answer.fault? with
    | some fault =>
      rw [last] at ended
      cases ended
    | none =>
      rw [last] at ended
      cases ended
      exact ⟨mapM_eq_ok_iff.mp each, rfl⟩
  · rintro ⟨each, last⟩
    exact ⟨records, mapM_eq_ok_iff.mpr each, by rw [last]⟩

/-- The fault of the first row that does not fit is told, or the one that comes after all rows. -/
theorem readAll_eq_error {fault : Fault} : (answer.readAll columns read).1 = .error fault ↔
    (∃ front row back, answer.namedRows columns = front ++ row :: back ∧
      (∀ other ∈ front, ∃ record, read other = .ok record) ∧ read row = .error fault) ∨
    (∀ row ∈ answer.namedRows columns, ∃ record, read row = .ok record) ∧
      answer.fault? = some fault := by
  rw [← mapM_eq_error_iff, ← mapM_ok_iff, readAll_eq]
  cases (answer.namedRows columns).mapM read with
  | error found => simp [bind, Except.bind]
  | ok records => cases answer.fault? <;> simp [bind, Except.bind]

/-- What holds of all that the engine leaves holds wherever reading stops. -/
theorem readAll_keeps (holds : World → Prop) (each : ∀ row ∈ answer.rows, holds row.2)
    (last : holds answer.left) : holds (answer.readAll columns read).2 := by
  suffices kept : ∀ rows : List (List Cell × World), (∀ row ∈ rows, holds row.2) →
      holds (readAll.readFrom answer columns read rows).2 from kept answer.rows each
  intro rows each
  induction rows with
  | nil =>
    rw [readAll.readFrom]
    cases answer.fault? <;> exact last
  | cons row rest ih =>
    obtain ⟨here, later⟩ := List.forall_mem_cons.mp each
    obtain ⟨cells, left⟩ := row
    rw [readAll.readFrom]
    cases read ⟨columns, cells⟩ with
    | error fault => exact here
    | ok record => exact ih later

end GridReport.Store.Answer
