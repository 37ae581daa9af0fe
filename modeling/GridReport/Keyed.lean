/-!
Rows grouped by a key, the groups in the order of their keys.

The groups are a list of pairs whose keys ascend; within a group the rows keep their order. Texts
ascend by code point, which is also the order of their UTF-8 bytes.
-/

namespace GridReport.Keyed

variable {κ : Type} [LE κ] [DecidableLE κ]

/-- The distinct keys in ascending order. -/
def keys [BEq κ] (ks : List κ) : List κ := (ks.mergeSort (fun a b => decide (a ≤ b))).eraseReps

def group [BEq κ] {α : Type} (key : α → κ) (rows : List α) : List (κ × List α) :=
  (keys (rows.map key)).map fun k => (k, rows.filter fun row => key row == k)

/-- The same pairs in the order of their keys; of equal keys the first stays in front. -/
def sorted {α : Type} (pairs : List (κ × α)) : List (κ × α) :=
  pairs.mergeSort fun a b => decide (a.1 ≤ b.1)

end GridReport.Keyed
