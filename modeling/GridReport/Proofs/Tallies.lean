import GridReport.Histogram
import Mathlib.Algebra.BigOperators.Group.Finset.Piecewise
import Mathlib.Algebra.GroupWithZero.Nat

/-!
What a histogram counts, whatever numbers it is built over.

Nothing here uses a law of the arithmetic. A value goes into the bin that its quotient is cut to,
and the cut is bounded by the last bin, so every value is counted once in a bin that is there even
if the quotient means nothing. All that numbers have to bring is an order for the least and the
greatest value.

* `countsOf_eq`, `sum_countP_range` — each count is the number of values of its bin, and together
  they are all values.
* `bounds_ends` — the range goes from the least value to the greatest, or half a unit beyond.
* `build_of_values`, `between_tallied` — the histogram of values of which some is finite.
* `total_ok` — the counts of few enough values are added up.
-/

namespace GridReport

/-! ### Order -/

/-- Finite numbers in an order in which the lesser and the greater of two are found. -/
class Measure.Ordered (α : Type) [Measure α] [LE α] : Prop where
  refl : ∀ x : α, isFinite x → x ≤ x
  trans : ∀ x y z : α, isFinite x → isFinite y → isFinite z → x ≤ y → y ≤ z → x ≤ z
  least_of_two : ∀ x y : α, isFinite x → isFinite y →
    (least x y = x ∨ least x y = y) ∧ least x y ≤ x ∧ least x y ≤ y
  greatest_of_two : ∀ x y : α, isFinite x → isFinite y →
    (greatest x y = x ∨ greatest x y = y) ∧ x ≤ greatest x y ∧ y ≤ greatest x y

namespace Histogram

variable {α : Type}

/-! ### Choices -/

/-- If of two items the better one is chosen, then of a list the best one is. -/
theorem foldl_best {best : α → α → α} {good : α → Prop} (better : α → α → Prop)
    (refl : ∀ x, good x → better x x)
    (trans : ∀ x y z, good x → good y → good z → better x y → better y z → better x z)
    (choice : ∀ x y, good x → good y →
      (best x y = x ∨ best x y = y) ∧ better (best x y) x ∧ better (best x y) y)
    {head : α} {tail : List α} (all : ∀ item ∈ head :: tail, good item) :
    tail.foldl best head ∈ head :: tail ∧
      ∀ item ∈ head :: tail, better (tail.foldl best head) item := by
  induction tail generalizing head with
  | nil =>
      constructor
      · exact List.mem_cons_self
      · intro item here
        rw [List.mem_singleton.mp here]
        exact refl head (all head List.mem_cons_self)
  | cons next rest ih =>
      have good_head := all head List.mem_cons_self
      have good_next := all next (by simp)
      obtain ⟨either, past_head, past_next⟩ := choice head next good_head good_next
      have good_best : good (best head next) := by
        rcases either with first | second
        · rwa [first]
        · rwa [second]
      have still_good : ∀ item ∈ best head next :: rest, good item := by
        intro item here
        rcases List.mem_cons.mp here with rfl | later
        · exact good_best
        · exact all item (by simp [later])
      obtain ⟨member, bound⟩ := ih still_good
      have over_best := bound _ List.mem_cons_self
      have good_last := still_good _ member
      rw [List.foldl_cons]
      constructor
      · rcases List.mem_cons.mp member with same | later
        · rw [same]
          rcases either with first | second
          · simp [first]
          · simp [second]
        · simp [later]
      · intro item here
        rcases List.mem_cons.mp here with rfl | here
        · exact trans _ _ _ good_last good_best good_head over_best past_head
        · rcases List.mem_cons.mp here with rfl | later
          · exact trans _ _ _ good_last good_best good_next over_best past_next
          · exact bound item (List.mem_cons_of_mem _ later)

/-! ### Counts -/

/-- Values entered into a table one by one add one each at their places. -/
theorem getElem?_foldl_modify (place : α → Nat) (values : List α) (table : Array Nat) (i : Nat) :
    (values.foldl (fun counts value => counts.modify (place value) (· + 1)) table)[i]? =
      table[i]?.map (· + values.countP (place · = i)) := by
  induction values generalizing table with
  | nil => simp
  | cons value rest ih =>
      rw [List.foldl_cons, ih, Array.getElem?_modify, List.countP_cons]
      by_cases here : place value = i
      · cases table[i]? with
        | none => simp
        | some count => simp [here, Nat.add_assoc, Nat.add_comm 1]
      · simp [here]

/-- Values that all have a place among the first ones are counted there, each once. -/
theorem sum_countP_range {place : α → Nat} {bins : Nat} {values : List α}
    (inside : ∀ value ∈ values, place value < bins) :
    ((List.range bins).map fun i => values.countP (place · = i)).sum = values.length := by
  induction values with
  | nil => simp
  | cons value rest ih =>
      have here : place value ∈ Finset.range bins :=
        Finset.mem_range.mpr (inside value List.mem_cons_self)
      have once : ((List.range bins).map fun i => if place value = i then 1 else 0).sum = 1 :=
        (Finset.sum_ite_eq (Finset.range bins) (place value) fun _ => 1).trans (if_pos here)
      simp only [List.countP_cons, decide_eq_true_eq, List.sum_map_add, once,
        ih fun v hv => inside v (List.mem_cons_of_mem _ hv), List.length_cons]

/-- The sum of the counts is returned if it fits. -/
theorem total_ok {histogram : Histogram α} (few : histogram.counts.sum ≤ greatestCount) :
    total histogram = .ok histogram.counts.sum := by
  have added : ∀ (counts : List Nat) (sum : Nat), sum + counts.sum ≤ greatestCount →
      counts.foldlM (fun sum count =>
        if sum + count ≤ greatestCount then Except.ok (sum + count) else .error Defect.overflow)
        sum = .ok (sum + counts.sum) := by
    intro counts
    induction counts with
    | nil => exact fun sum _ => rfl
    | cons count rest ih =>
        intro sum few
        rw [List.sum_cons] at few ⊢
        have here : sum + count ≤ greatestCount := by omega
        rw [List.foldlM_cons, if_pos here]
        exact (ih (sum + count) (by omega)).trans (by rw [Nat.add_assoc])
  have all := added histogram.counts 0 (by omega)
  rwa [Nat.zero_add] at all

section Measured

variable [Measure α]

/-- No value is past the last bin. -/
theorem binOf_lt {bins : Nat} (positive : 0 < bins) (low width value : α) :
    binOf low width bins value < bins := by
  rw [binOf]
  omega

/-- Each bin counts the values that fall into it. -/
theorem countsOf_eq (low width : α) (bins : Nat) (values : List α) :
    countsOf low width bins values =
      (List.range bins).map fun i => values.countP (binOf low width bins · = i) := by
  apply List.ext_getElem?
  intro i
  rw [countsOf, Array.getElem?_toList, getElem?_foldl_modify, Array.getElem?_replicate,
    List.getElem?_map]
  by_cases within : i < bins
  · simp [within]
  · simp [within]

/-! ### The range -/

/-- The least and the greatest of the values, or half a unit on either side of it if they are
equal. -/
def Ends [LE α] (values : List α) (low high : α) : Prop :=
  ∃ least ∈ values, ∃ greatest ∈ values, (∀ value ∈ values, least ≤ value ∧ value ≤ greatest) ∧
    (low, high) =
      if Measure.same least greatest then
        (Measure.sub least Measure.half, Measure.add greatest Measure.half)
      else (least, greatest)

section Ordered

variable [LE α] [Measure.Ordered α] {head : α} {tail : List α}

/-- The range goes from the least value to the greatest, or is widened if they are equal. -/
theorem bounds_ends (finite : ∀ value ∈ head :: tail, Measure.isFinite value) :
    Ends (head :: tail) (bounds head tail).1 (bounds head tail).2 := by
  obtain ⟨least_member, least_bound⟩ := foldl_best (· ≤ ·) Measure.Ordered.refl
    Measure.Ordered.trans Measure.Ordered.least_of_two finite
  obtain ⟨greatest_member, greatest_bound⟩ := foldl_best (fun x y : α => y ≤ x)
    Measure.Ordered.refl (fun x y z hx hy hz hxy hyz =>
      Measure.Ordered.trans z y x hz hy hx hyz hxy) Measure.Ordered.greatest_of_two finite
  refine ⟨_, least_member, _, greatest_member, fun value here => ?_, ?_⟩
  · exact ⟨least_bound value here, greatest_bound value here⟩
  · rfl

end Ordered

/-! ### The histogram -/

/-- The width of the bins. -/
def widthOf (low high : α) (bins : Nat) : α :=
  Measure.div (Measure.sub high low) (Measure.ofCount bins)

/-- A histogram up to `high` with a count for each bin and an edge on either side of it. Each value
is counted once, in the bin of its quotient. -/
structure Tallied (values : List α) (low high : α) (bins : Nat) (histogram : Histogram α) :
    Prop where
  edges : histogram.edges.length = bins + 1
  last : histogram.edges.getLast? = some high
  size : histogram.counts.length = bins
  inside : ∀ value ∈ values, binOf low (widthOf low high bins) bins value < bins
  counts : ∀ i < bins, histogram.counts[i]? =
    some (values.countP (binOf low (widthOf low high bins) bins · = i))
  total : histogram.counts.sum = values.length

/-- The histogram of a range. -/
def between (values : List α) (low high : α) (bins : Nat) : Histogram α :=
  ⟨edgesOf low high (widthOf low high bins) bins, countsOf low (widthOf low high bins) bins values⟩

/-- What is built between two bounds tallies the values. -/
theorem between_tallied {bins : Nat} (positive : 0 < bins) (values : List α) (low high : α) :
    Tallied values low high bins (between values low high bins) where
  edges := by simp [between, edgesOf]
  last := by simp [between, edgesOf]
  size := by simp [between, countsOf_eq]
  inside := fun value _ => binOf_lt positive low _ value
  counts := by
    intro i within
    simp [between, countsOf_eq, within]
  total := by
    rw [between, countsOf_eq]
    exact sum_countP_range fun value _ => binOf_lt positive low _ value

variable {values : List α} {bins : Nat}

/-- Without a finite value there is no histogram. -/
theorem build_noValues (positive : 0 < bins) (none_finite : values.filter Measure.isFinite = []) :
    build values bins = .error .noValues := by
  rw [build, if_neg (Nat.ne_of_gt positive), none_finite]

/-- Some finite values have a histogram exactly if their range is finite. -/
theorem build_of_values (positive : 0 < bins) {head : α} {tail : List α}
    (finite : values.filter Measure.isFinite = head :: tail) :
    build values bins =
      if Measure.isFinite (Measure.sub (bounds head tail).2 (bounds head tail).1) then
        .ok (between (head :: tail) (bounds head tail).1 (bounds head tail).2 bins)
      else .error (.wideRange (bounds head tail).1 (bounds head tail).2) := by
  rw [build, if_neg (Nat.ne_of_gt positive), finite]
  rfl

/-- Only the finite values count. -/
theorem build_congr {others : List α}
    (same : others.filter Measure.isFinite = values.filter Measure.isFinite) :
    build others bins = build values bins := by
  rw [build, build, same]

/-- There is a histogram only of some finite values, and it is that of their range. -/
theorem tallied_of_build {histogram : Histogram α} (built : build values bins = .ok histogram) :
    ∃ low high, Tallied (values.filter Measure.isFinite) low high bins histogram := by
  rcases Nat.eq_zero_or_pos bins with rfl | positive
  · cases built
  cases finite : values.filter Measure.isFinite with
  | nil =>
      rw [build_noValues positive finite] at built
      cases built
  | cons head tail =>
      rw [build_of_values positive finite] at built
      split at built
      · cases built
        exact ⟨_, _, between_tallied positive _ _ _⟩
      · cases built

end Measured

end Histogram

end GridReport
