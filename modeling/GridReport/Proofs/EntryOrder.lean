import GridReport.Proofs.Sweep
import Mathlib.Algebra.Order.BigOperators.Group.List

/-!
In which orders intervals can be entered.

The counts do not depend on the order of the intervals, but the sweep may stop before it has them.
The intervals that change one entry of the table are added to it one after another, and each sum on
the way is checked. So it is the order of the intervals that meet in an entry that decides whether
the sweep returns, and only for deltas of both signs.

* `enterable_iff_entrants` — only the order of the intervals that meet in an entry matters.
* `enterable_of_natural` — deltas that are not negative can be entered in any order.
* `count_reordered` — what becomes of a sweep when the intervals are put into another order.
* `count_overflows_in_order` — three intervals that can be counted in one order and not in another.
-/

namespace GridReport.Overlap

section Outcomes

variable {intervals others : List Interval}

/-! ### Other orders -/

/-- The ends of intervals do not depend on their order. -/
theorem coordinates_perm (perm : intervals.Perm others) :
    coordinates intervals = coordinates others := by
  unfold coordinates
  congr 1
  apply Ascending.mergeSort_eq_of_perm id (fun _ _ => decide_eq_true_iff) (perm.flatMap_right _)
  intro a _ b _ same
  exact same

theorem liveSum_perm (perm : intervals.Perm others) (time : Int) :
    liveSum intervals time = liveSum others time :=
  ((perm.filter _).map _).sum_eq

theorem countable_perm (perm : intervals.Perm others) :
    Countable intervals ↔ Countable others := by
  unfold Countable
  rw [coordinates_perm perm]
  simp only [liveSum_perm perm]

/-- The intervals that change an entry, in their order. -/
def entrants (intervals : List Interval) (k : Nat) : List Interval :=
  intervals.filter fun interval => change (coordinates intervals).toArray interval k ≠ 0

/-- Amounts of zero do not count in a sum. -/
theorem sum_filter_ne_zero (amount : Interval → Int) (intervals : List Interval) :
    ((intervals.filter fun interval => amount interval ≠ 0).map amount).sum =
      (intervals.map amount).sum := by
  induction intervals with
  | nil => rfl
  | cons interval rest ih =>
      by_cases none_added : amount interval = 0
      · rw [List.filter_cons_of_neg (by simp [none_added]), ih, List.map_cons, List.sum_cons,
          none_added, Int.zero_add]
      · rw [List.filter_cons_of_pos (by simp [none_added]), List.map_cons, List.map_cons,
          List.sum_cons, List.sum_cons, ih]

/-- Only the order of the intervals that meet in an entry matters. -/
theorem enterable_iff_entrants :
    Enterable intervals ↔ ∀ k front, front <+: entrants intervals k →
      Tick.InRange (front.map (change (coordinates intervals).toArray · k)).sum := by
  constructor
  · intro enterable k front here
    obtain ⟨longer, more, rfl⟩ := List.prefix_filter_iff.mp here
    rw [sum_filter_ne_zero]
    exact enterable longer more k
  · intro each front here k
    rw [← sum_filter_ne_zero]
    exact each k _ (here.filter _)

/-- What is entered at each place decides whether it can be. -/
theorem enterable_of_entrants (perm : intervals.Perm others)
    (same : ∀ k, entrants intervals k = entrants others k) :
    Enterable intervals ↔ Enterable others := by
  rw [enterable_iff_entrants, enterable_iff_entrants, coordinates_perm perm]
  simp only [same]

/-! ### Deltas that are not negative -/

/-- What the entries up to a place add up to. -/
def level (coords : Array Int) (intervals : List Interval) (k : Nat) : Int :=
  ∑ j ∈ Finset.range (k + 1), (intervals.map (change coords · j)).sum

section Levels

variable {coords : Array Int}

/-- Up to a place, each interval that is on there has added its delta. -/
theorem level_eq (placed : ∀ interval ∈ intervals, Placed coords interval) (k : Nat) :
    level coords intervals k = (intervals.map fun interval =>
      if position coords interval.start ≤ k ∧ k ≤ position coords interval.finish then
        interval.delta
      else 0).sum := by
  induction intervals with
  | nil => simp [level]
  | cons interval rest ih =>
      have later := ih fun i hi => placed i (List.mem_cons_of_mem _ hi)
      unfold level at later ⊢
      simp only [List.map_cons, List.sum_cons, Finset.sum_add_distrib, later]
      rw [prefix_change (placed interval List.mem_cons_self)]

/-- No place sinks below zero if each interval counts for something. -/
theorem level_nonneg (placed : ∀ interval ∈ intervals, Placed coords interval)
    (natural : ∀ interval ∈ intervals, 0 ≤ interval.delta) (k : Nat) :
    0 ≤ level coords intervals k := by
  rw [level_eq placed]
  apply List.sum_nonneg
  intro amount listed
  obtain ⟨interval, here, rfl⟩ := List.mem_map.mp listed
  split
  · exact natural interval here
  · exact Int.le_refl 0

/-- Behind the last place every interval is off again. -/
theorem level_past (placed : ∀ interval ∈ intervals, Placed coords interval) {k : Nat}
    (past : coords.size ≤ k) : level coords intervals k = 0 := by
  rw [level_eq placed]
  apply List.sum_eq_zero
  intro amount listed
  obtain ⟨interval, here, rfl⟩ := List.mem_map.mp listed
  have inside := (placed interval here).inside
  exact if_neg (by omega)

/-- Levels of two lists add up. -/
theorem level_append (front back : List Interval) (k : Nat) :
    level coords (front ++ back) k = level coords front k + level coords back k := by
  simp only [level, List.map_append, List.sum_append, Finset.sum_add_distrib]

/-- An entry is what one level has more than the one before. -/
theorem sum_change_succ (intervals : List Interval) (k : Nat) :
    (intervals.map (change coords · (k + 1))).sum =
      level coords intervals (k + 1) - level coords intervals k := by
  rw [level, level, Finset.sum_range_succ _ (k + 1)]
  omega

end Levels

/-- If no delta is negative and every count can be held, every entry is the difference of two counts
that can be held, whichever intervals have been entered so far. -/
theorem enterable_of_natural (forward : ∀ interval ∈ intervals, interval.start ≤ interval.finish)
    (natural : ∀ interval ∈ intervals, 0 ≤ interval.delta) (countable : Countable intervals) :
    Enterable intervals := by
  have placed := placed_coordinates forward
  have whole : ∀ k, level (coordinates intervals).toArray intervals k ≤ Tick.greatest := by
    intro k
    by_cases within : k < (coordinates intervals).toArray.size
    · have live := sum_changes (coordinates_ascending intervals) (ends_mem_coordinates intervals)
        forward within
      rw [level, live]
      exact (countable _ (by simp)).2
    · rw [level_past placed (Nat.le_of_not_lt within)]
      decide
  rintro front ⟨back, rfl⟩ k
  have bounds : ∀ k, 0 ≤ level (coordinates (front ++ back)).toArray front k ∧
      level (coordinates (front ++ back)).toArray front k ≤ Tick.greatest := by
    intro k
    have low := level_nonneg (fun i hi => placed i (List.mem_append_left back hi))
      (fun i hi => natural i (List.mem_append_left back hi)) k
    have rest := level_nonneg (fun i hi => placed i (List.mem_append_right front hi))
      (fun i hi => natural i (List.mem_append_right front hi)) k
    have most := whole k
    rw [level_append] at most
    omega
  simp only [Tick.InRange, Tick.least, Tick.greatest] at bounds ⊢
  cases k with
  | zero =>
      have here := bounds 0
      rw [level, Finset.sum_range_one] at here
      omega
  | succ k =>
      have before := bounds k
      have here := bounds (k + 1)
      rw [sum_change_succ]
      omega

/-- Where both orders can be entered, they give the same points. -/
theorem count_eq_of_perm (perm : intervals.Perm others)
    (forward : ∀ interval ∈ intervals, interval.start ≤ interval.finish)
    (countable : Countable intervals) (enterable : Enterable intervals)
    (enterable' : Enterable others) : count intervals = count others := by
  have forward' : ∀ interval ∈ others, interval.start ≤ interval.finish :=
    fun interval here => forward interval (perm.mem_iff.mpr here)
  rw [count_returns forward enterable countable,
    count_returns forward' enterable' ((countable_perm perm).mp countable), coordinates_perm perm]
  simp only [liveSum_perm perm]

/-- Two orders end alike exactly if the sums on the way are in range in both or in neither. -/
theorem count_eq_iff (perm : intervals.Perm others)
    (forward : ∀ interval ∈ intervals, interval.start ≤ interval.finish) :
    count intervals = count others ↔
      (Countable intervals → (Enterable intervals ↔ Enterable others)) := by
  have forward' : ∀ interval ∈ others, interval.start ≤ interval.finish :=
    fun interval here => forward interval (perm.mem_iff.mpr here)
  have same_counts := countable_perm perm
  constructor
  · intro same countable
    have returns := count_ok_iff forward
    have returns' := count_ok_iff forward'
    rw [← same] at returns'
    have both := returns.symm.trans returns'
    rwa [← same_counts, and_iff_left countable, and_iff_left countable] at both
  · intro alike
    by_cases enterable : Enterable intervals ∧ Countable intervals
    · obtain ⟨enterable, countable⟩ := enterable
      exact count_eq_of_perm perm forward countable enterable ((alike countable).mp enterable)
    · have unfit' : ¬ (Enterable others ∧ Countable others) := by
        rintro ⟨enterable', countable'⟩
        have countable := same_counts.mpr countable'
        exact enterable ⟨(alike countable).mpr enterable', countable⟩
      rw [count_overflows forward enterable, count_overflows forward' unfit']

/-- **What another order of the intervals changes.** A sweep over intervals that do not end before
they start returns the counts at the coordinates or overflows, so if it returns in two orders it
returns the same points. It ends alike in both exactly if all sums on the way are in range in both
orders or in neither, or some count cannot be held at all. That is so if the intervals that meet in
an entry keep their order, and whenever no delta is negative. -/
theorem count_reordered (intervals others : List Interval) (perm : intervals.Perm others)
    (forward : ∀ interval ∈ intervals, interval.start ≤ interval.finish) :
    (∀ failure, count intervals = .error failure → failure = .broken .overflow) ∧
    (∀ points points', count intervals = .ok points → count others = .ok points' →
      points = points') ∧
    (count intervals = count others ↔
      (Countable intervals → (Enterable intervals ↔ Enterable others))) ∧
    ((∀ k, entrants intervals k = entrants others k) → count intervals = count others) ∧
    ((∀ interval ∈ intervals, 0 ≤ interval.delta) → count intervals = count others) := by
  have forward' : ∀ interval ∈ others, interval.start ≤ interval.finish :=
    fun interval here => forward interval (perm.mem_iff.mpr here)
  have decided := count_eq_iff perm forward
  refine ⟨fun _ => count_error forward, ?_, decided, ?_, ?_⟩
  · intro points points' returned returned'
    obtain ⟨enterable, countable⟩ := (count_ok_iff forward).mp ⟨points, returned⟩
    obtain ⟨enterable', -⟩ := (count_ok_iff forward').mp ⟨points', returned'⟩
    have same := count_eq_of_perm perm forward countable enterable enterable'
    rw [returned, returned'] at same
    exact Except.ok.inj same
  · intro same
    exact decided.mpr fun _ => enterable_of_entrants perm same
  · intro natural
    rw [decided]
    intro countable
    have natural' : ∀ interval ∈ others, 0 ≤ interval.delta :=
      fun interval here => natural interval (perm.mem_iff.mpr here)
    exact iff_of_true (enterable_of_natural forward natural countable)
      (enterable_of_natural forward' natural' ((countable_perm perm).mp countable))

/-- Intervals that fill a count up to the greatest one, next to each other. -/
def fullIntervals : List Interval :=
  [⟨0, 1, 9223372036854775807⟩, ⟨2, 3, 9223372036854775806⟩, ⟨2, 5, 1⟩]

theorem count_reordered_full :
    fullIntervals.Perm fullIntervals.reverse ∧
      (∀ interval ∈ fullIntervals, interval.start ≤ interval.finish) ∧
      (∀ interval ∈ fullIntervals, 0 ≤ interval.delta) ∧
      count fullIntervals = count fullIntervals.reverse := by
  have perm : fullIntervals.Perm fullIntervals.reverse := fullIntervals.reverse_perm.symm
  have forward : ∀ interval ∈ fullIntervals, interval.start ≤ interval.finish := by decide
  have natural : ∀ interval ∈ fullIntervals, 0 ≤ interval.delta := by decide
  obtain ⟨-, -, -, -, alike⟩ := count_reordered fullIntervals fullIntervals.reverse perm forward
  exact ⟨perm, forward, natural, alike natural⟩

/-- The greatest delta, then one more and one less at the same time. -/
def risingIntervals : List Interval :=
  [⟨0, 1, 9223372036854775807⟩, ⟨0, 1, 1⟩, ⟨0, 1, -1⟩]

/-- The same, with the one less in front of the one more. -/
def fallingIntervals : List Interval :=
  [⟨0, 1, 9223372036854775807⟩, ⟨0, 1, -1⟩, ⟨0, 1, 1⟩]

/-- One order of three intervals overflows where another one returns the counts. -/
theorem count_overflows_in_order :
    risingIntervals.Perm fallingIntervals ∧
      (∀ interval ∈ risingIntervals,
        interval.start ≤ interval.finish ∧ Tick.InRange interval.delta) ∧
      count risingIntervals = .error (.broken .overflow) ∧
      count fallingIntervals =
        .ok [⟨0, 9223372036854775807⟩, ⟨1, 9223372036854775807⟩] := by
  have perm : risingIntervals.Perm fallingIntervals := (List.Perm.swap _ _ []).cons _
  have forward : ∀ interval ∈ risingIntervals, interval.start ≤ interval.finish := by decide
  have forward' : ∀ interval ∈ fallingIntervals, interval.start ≤ interval.finish := by decide
  have ends : coordinates fallingIntervals = [0, 1] := by
    simp +decide [fallingIntervals, coordinates, List.mergeSort,
      List.MergeSort.Internal.splitInTwo]
  refine ⟨perm, by decide, ?_, ?_⟩
  · rw [count_of_forward forward, coordinates_perm perm, ends]
    have stopped : differences #[0, 1] risingIntervals = .error .overflow := by decide +kernel
    rw [stopped]
    rfl
  · rw [count_of_forward forward', ends, orBreak_eq_ok]
    decide +kernel

end Outcomes

end GridReport.Overlap
