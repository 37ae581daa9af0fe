import GridReport.Keyed
import GridReport.Proofs.Ascending
import Mathlib.Data.String.Basic

/-!
What the grouping by a key holds.

* `keys_ascending`, `mem_keys` — the keys are those that occur, each once, in ascending order.
* `fst_group`, `mem_group` — one group for each key, with all its rows in their order.
-/

namespace GridReport.Keyed

variable {κ : Type} [LinearOrder κ] [DecidableLE κ] [BEq κ] [LawfulBEq κ]

/-- in ascending order. -/
theorem keys_ascending (ks : List κ) : (keys ks).Pairwise (· < ·) :=
  Ascending.distinct_ascending (fun _ _ => decide_eq_true_iff) ks

/-- The keys are those that are there, -/
theorem mem_keys {k : κ} {ks : List κ} : k ∈ keys ks ↔ k ∈ ks := Ascending.mem_distinct

variable {α : Type} {key : α → κ} {rows : List α}

omit [LawfulBEq κ] in
theorem fst_group (key : α → κ) (rows : List α) :
    (group key rows).map Prod.fst = keys (rows.map key) := by
  rw [group, List.map_map]
  exact List.map_id _

/-- The rows of a key are those that have it, in their order. -/
theorem mem_group {pair : κ × List α} :
    pair ∈ group key rows ↔
      (∃ row ∈ rows, key row = pair.1) ∧ pair.2 = rows.filter fun row => key row == pair.1 := by
  rw [group, List.mem_map]
  constructor
  · rintro ⟨k, hk, rfl⟩
    exact ⟨List.mem_map.mp (mem_keys.mp hk), rfl⟩
  · rintro ⟨known, members⟩
    exact ⟨pair.1, mem_keys.mpr (List.mem_map.mpr known), Prod.ext rfl members.symm⟩

end GridReport.Keyed
