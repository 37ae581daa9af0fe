import Mathlib.Data.List.TakeWhile
import Mathlib.Order.Lattice

/-!
Lists in ascending order.

* `takeWhile_eq_filter`, `dropWhile_eq_filter` — on a list along which a condition can only turn
  false once, cutting at the first failure is filtering.
* `mem_eraseReps`, `eraseReps_ascending` — dropping neighbouring repetitions keeps the members, and
  of a sorted list it leaves each member once, strictly ascending.
* `mergeSort_sorted`, `mergeSort_eq_of_perm` — sorting by a key, and when its result does not
  depend on the order of the items.
* `filter_mergeSort`, `eq_of_filter_eq` — sorting keeps items of the same key in their order, and a
  sorted list is told by its items of each key.
* `distinct_ascending`, `mem_distinct` — sorting and dropping repetitions together, which is how
  coordinates and group keys are made.
-/

namespace GridReport.Ascending

variable {α : Type}

/-! ### Cutting a sorted list -/

/-- If the condition never comes back once it has failed, the items up to the first failure are all
items that satisfy it. -/
theorem takeWhile_eq_filter {p : α → Bool} {xs : List α}
    (once : xs.Pairwise fun a b => p b = true → p a = true) : xs.takeWhile p = xs.filter p := by
  induction xs with
  | nil => rfl
  | cons x xs ih =>
      obtain ⟨first, rest⟩ := List.pairwise_cons.mp once
      by_cases hx : p x = true
      · rw [List.takeWhile_cons_of_pos hx, List.filter_cons_of_pos hx, ih rest]
      · have none_left : xs.filter p = [] :=
          List.filter_eq_nil_iff.mpr fun y hy holds => hx (first y hy holds)
        rw [List.takeWhile_cons_of_neg hx, List.filter_cons_of_neg hx, none_left]

/-- The rest after the first failure is all items that do not satisfy the condition. -/
theorem dropWhile_eq_filter {p : α → Bool} {xs : List α}
    (once : xs.Pairwise fun a b => p b = true → p a = true) :
    xs.dropWhile p = xs.filter (fun x => !p x) := by
  induction xs with
  | nil => rfl
  | cons x xs ih =>
      obtain ⟨first, rest⟩ := List.pairwise_cons.mp once
      by_cases hx : p x = true
      · rw [List.dropWhile_cons_of_pos hx, List.filter_cons_of_neg (by simp [hx]), ih rest]
      · have all_left : (x :: xs).filter (fun x => !p x) = x :: xs := by
          refine List.filter_eq_self.mpr fun y hy => ?_
          rcases List.mem_cons.mp hy with rfl | hy
          · simpa using hx
          · simpa using fun holds => hx (first y hy holds)
        rw [List.dropWhile_cons_of_neg hx, all_left]

/-! ### Dropping neighbouring repetitions -/

section Repetitions

variable [BEq α]

/-- What the loop has put aside stands in front of what it still makes. -/
theorem eraseReps_loop (a : α) (xs acc : List α) :
    List.eraseRepsBy.loop (· == ·) a xs acc = acc.reverse ++ (a :: xs).eraseReps := by
  induction xs generalizing a acc with
  | nil => simp [List.eraseReps, List.eraseRepsBy, List.eraseRepsBy.loop]
  | cons b xs ih =>
      simp only [List.eraseReps, List.eraseRepsBy, List.eraseRepsBy.loop] at ih ⊢
      cases a == b with
      | true => exact ih a acc
      | false => rw [ih b (a :: acc), ih b [a]]; simp

variable [LawfulBEq α]

theorem eraseReps_cons_cons (a b : α) (xs : List α) :
    (a :: b :: xs).eraseReps =
      if a == b then (b :: xs).eraseReps else a :: (b :: xs).eraseReps := by
  have step : (a :: b :: xs).eraseReps = List.eraseRepsBy.loop (· == ·) a (b :: xs) [] := rfl
  rw [step, List.eraseRepsBy.loop]
  cases hab : a == b with
  | true =>
      show List.eraseRepsBy.loop (· == ·) a xs [] = (b :: xs).eraseReps
      rw [eraseReps_loop, eq_of_beq hab]
      rfl
  | false =>
      show List.eraseRepsBy.loop (· == ·) b xs [a] = a :: (b :: xs).eraseReps
      rw [eraseReps_loop]
      rfl

/-- Only repetitions are erased. -/
theorem mem_eraseReps {a : α} {xs : List α} : a ∈ xs.eraseReps ↔ a ∈ xs := by
  induction xs with
  | nil => simp [List.eraseReps, List.eraseRepsBy]
  | cons b xs ih =>
      cases xs with
      | nil => simp [List.eraseReps, List.eraseRepsBy, List.eraseRepsBy.loop]
      | cons c xs =>
          rw [eraseReps_cons_cons]
          by_cases hbc : b = c
          · subst hbc
            simp [ih]
          · simp [hbc, ih]

/-- Of a sorted list each member is left once. -/
theorem eraseReps_ascending [LinearOrder α] {xs : List α} (sorted : xs.Pairwise (· ≤ ·)) :
    xs.eraseReps.Pairwise (· < ·) := by
  induction xs with
  | nil => exact List.Pairwise.nil
  | cons a xs ih =>
      cases xs with
      | nil => simp [List.eraseReps, List.eraseRepsBy, List.eraseRepsBy.loop]
      | cons b xs =>
          obtain ⟨least, rest⟩ := List.pairwise_cons.mp sorted
          rw [eraseReps_cons_cons]
          by_cases hab : a = b
          · simpa [hab] using ih rest
          · have below : ∀ c ∈ (b :: xs).eraseReps, a < c := by
              intro c hc
              have hac := lt_of_le_of_ne (least b List.mem_cons_self) hab
              rcases List.mem_cons.mp (mem_eraseReps.mp hc) with rfl | hc
              · exact hac
              · exact lt_of_lt_of_le hac ((List.pairwise_cons.mp rest).1 c hc)
            simpa [hab] using ⟨below, ih rest⟩

end Repetitions

/-! ### Sorting -/

section Sorting

variable {β : Type} [LinearOrder β] {le : α → α → Bool} (key : α → β)

theorem trans_of_key (spec : ∀ a b, le a b = true ↔ key a ≤ key b) (a b c : α)
    (hab : le a b = true) (hbc : le b c = true) : le a c = true :=
  (spec a c).mpr (le_trans ((spec a b).mp hab) ((spec b c).mp hbc))

theorem total_of_key (spec : ∀ a b, le a b = true ↔ key a ≤ key b) (a b : α) :
    (le a b || le b a) = true := by
  rcases le_total (key a) (key b) with h | h
  · simp [(spec a b).mpr h]
  · simp [(spec b a).mpr h]

/-- Sorting by a test that compares keys leaves the keys in order. -/
theorem mergeSort_sorted (spec : ∀ a b, le a b = true ↔ key a ≤ key b) (xs : List α) :
    (xs.mergeSort le).Pairwise fun a b => key a ≤ key b :=
  (List.pairwise_mergeSort (trans_of_key key spec) (total_of_key key spec) xs).imp
    fun h => (spec _ _).mp h

/-- Where the key tells all items apart, sorting forgets the order it started from. -/
theorem mergeSort_eq_of_perm (spec : ∀ a b, le a b = true ↔ key a ≤ key b) {xs ys : List α}
    (perm : xs.Perm ys) (apart : ∀ a ∈ xs, ∀ b ∈ ys, key a = key b → a = b) :
    xs.mergeSort le = ys.mergeSort le := by
  have sorted_perm : (xs.mergeSort le).Perm (ys.mergeSort le) :=
    (List.mergeSort_perm xs le).trans (perm.trans (List.mergeSort_perm ys le).symm)
  refine sorted_perm.eq_of_pairwise ?_ (mergeSort_sorted key spec xs) (mergeSort_sorted key spec ys)
  intro a b ha hb hab hba
  exact apart a (List.mem_mergeSort.mp ha) b (List.mem_mergeSort.mp hb) (le_antisymm hab hba)

/-- Items of the same key stay in the order in which sorting found them. -/
theorem filter_mergeSort [DecidableEq β] (spec : ∀ a b, le a b = true ↔ key a ≤ key b)
    (xs : List α) (k : β) :
    (xs.mergeSort le).filter (fun x => key x = k) = xs.filter fun x => key x = k := by
  have in_order : (xs.filter fun x => key x = k).Pairwise fun a b => le a b = true := by
    apply List.pairwise_of_forall_mem_list
    intro a ha b hb
    have same_a : key a = k := by simpa using (List.mem_filter.mp ha).2
    have same_b : key b = k := by simpa using (List.mem_filter.mp hb).2
    exact (spec a b).mpr (by rw [same_a, same_b])
  have kept := (List.sublist_mergeSort (trans_of_key key spec) (total_of_key key spec) in_order
    List.filter_sublist).filter fun x => decide (key x = k)
  rw [List.filter_filter] at kept
  simp only [Bool.and_self] at kept
  have count : (xs.filter fun x => key x = k).length =
      ((xs.mergeSort le).filter fun x => key x = k).length :=
    ((List.mergeSort_perm xs le).filter _).length_eq.symm
  exact (kept.eq_of_length count).symm

omit [LinearOrder β] in
/-- Lists that agree on each key have the same members. -/
theorem mem_iff_of_filter_eq [DecidableEq β] {xs ys : List α}
    (same : ∀ k, xs.filter (fun x => key x = k) = ys.filter fun y => key y = k) (z : α) :
    z ∈ xs ↔ z ∈ ys := by
  have here := congrArg (z ∈ ·) (same (key z))
  simpa using here

/-- A sorted list is told by its items of each key. -/
theorem eq_of_filter_eq [DecidableEq β] {xs ys : List α}
    (sorted : xs.Pairwise fun a b => key a ≤ key b) (sorted' : ys.Pairwise fun a b => key a ≤ key b)
    (same : ∀ k, xs.filter (fun x => key x = k) = ys.filter fun y => key y = k) : xs = ys := by
  induction xs generalizing ys with
  | nil =>
      cases ys with
      | nil => rfl
      | cons y ys => simpa using mem_iff_of_filter_eq key same y
  | cons x xs ih =>
      cases ys with
      | nil => simpa using mem_iff_of_filter_eq key same x
      | cons y ys =>
          obtain ⟨least, order⟩ := List.pairwise_cons.mp sorted
          obtain ⟨least', order'⟩ := List.pairwise_cons.mp sorted'
          -- Each head is a member of the other list and so not below its head.
          have same_key : key x = key y := by
            apply le_antisymm
            · have member := (mem_iff_of_filter_eq key same y).mpr List.mem_cons_self
              rcases List.mem_cons.mp member with rfl | later
              · exact le_refl _
              · exact least y later
            · have member := (mem_iff_of_filter_eq key same x).mp List.mem_cons_self
              rcases List.mem_cons.mp member with rfl | later
              · exact le_refl _
              · exact least' x later
          have heads : x :: xs.filter (fun z => key z = key x) =
              y :: ys.filter fun z => key z = key x := by
            simpa [same_key] using same (key x)
          obtain ⟨rfl, -⟩ := List.cons.inj heads
          have rest : ∀ k, xs.filter (fun z => key z = k) = ys.filter fun z => key z = k := by
            intro k
            have here := same k
            by_cases hk : key x = k
            · simpa [hk] using here
            · simpa [hk] using here
          rw [ih order order' rest]

end Sorting

/-- Sorted without repetitions, a list ascends strictly. -/
theorem distinct_ascending [BEq α] [LawfulBEq α] [LinearOrder α] {le : α → α → Bool}
    (spec : ∀ a b, le a b = true ↔ a ≤ b) (xs : List α) :
    (xs.mergeSort le).eraseReps.Pairwise (· < ·) :=
  eraseReps_ascending (mergeSort_sorted id spec xs)

theorem mem_distinct [BEq α] [LawfulBEq α] {le : α → α → Bool} {a : α} {xs : List α} :
    a ∈ (xs.mergeSort le).eraseReps ↔ a ∈ xs :=
  mem_eraseReps.trans List.mem_mergeSort

end GridReport.Ascending
