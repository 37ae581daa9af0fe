import GridReport.Overlap
import Mathlib.Algebra.BigOperators.Intervals
import Mathlib.Algebra.Order.Ring.Int

/-!
The table of differences of a sweep, and its running sums.

Two loops with checked sums: intervals are entered into the table one after another, and then its
entries are added up. For each of them this module says what it leaves behind if it returns, and
that it returns exactly if every sum on the way is in range.

* `enter_eq_ok`, `foldlM_enter_eq_ok` — what one interval and what all intervals add to the table.
* `foldlM_enter_ok_iff`, `accumulate_ok_iff` — the two loops stop exactly at a sum out of range.
* `accumulate_eq_ok` — the checked running sums are the running sums.
* `prefix_change` — an interval is on in the running sums from its start up to its finish.
-/

namespace GridReport.Overlap

/-! ### Entries -/

/-- What the table holds at a position; beyond its end nothing is added up. -/
def entry (table : Array Int) (k : Nat) : Int := table[k]?.getD 0

theorem entry_replicate (size k : Nat) : entry (Array.replicate size 0) k = 0 := by
  rw [entry, Array.getElem?_replicate]
  split <;> rfl

theorem checked_eq_ok {n m : Int} (inRange : Tick.checked n = .ok m) : m = n := by
  rw [Tick.checked] at inRange
  split at inRange
  · cases inRange
    rfl
  · cases inRange

/-- Within the table, only the sum can be refused. -/
theorem addAt_inside {table : Array Int} {index : Nat} (amount : Int)
    (inside : index < table.size) : addAt table index amount =
      if Tick.InRange (entry table index + amount) then
        .ok (table.setIfInBounds index (entry table index + amount))
      else .error .overflow := by
  have held : table[index]? = some (entry table index) := by simp [entry, inside]
  simp only [addAt, held, Tick.checked]
  by_cases range : Tick.InRange (entry table index + amount)
  · simp [range]
  · simp [range]

/-- A sum that is entered changes one entry. -/
theorem addAt_eq_ok {table next : Array Int} {index : Nat} {amount : Int}
    (added : addAt table index amount = .ok next) :
    next.size = table.size ∧
      ∀ k, entry next k = entry table k + if k = index then amount else 0 := by
  rw [addAt] at added
  split at added
  · cases added
  · rename_i old held
    split at added
    · cases added
    · rename_i sum summed
      cases added
      obtain rfl := checked_eq_ok summed
      obtain ⟨inside, rfl⟩ := Array.getElem?_eq_some_iff.mp held
      refine ⟨Array.size_setIfInBounds, fun k => ?_⟩
      by_cases here : k = index
      · subst here
        simp [entry, inside]
      · simp [entry, here, Ne.symm here]

/-! ### Entering -/

/-- What an interval adds to the table at position `k`: its delta where it starts, the same taken
off right behind the place where it ends. -/
def change (coords : Array Int) (interval : Interval) (k : Nat) : Int :=
  (if k = position coords interval.start then interval.delta else 0) +
    if k = position coords interval.finish + 1 then -interval.delta else 0

/-- The ends of an interval have their places among the coordinates, in this order. -/
structure Placed (coords : Array Int) (interval : Interval) : Prop where
  ordered : position coords interval.start ≤ position coords interval.finish
  inside : position coords interval.finish < coords.size

section Entering

variable {coords table : Array Int} {interval : Interval} {intervals : List Interval}

/-- The table changes by the delta where an interval starts, -/
theorem change_start (placed : Placed coords interval) :
    change coords interval (position coords interval.start) = interval.delta := by
  have := placed.ordered
  rw [change, if_pos rfl, if_neg (by omega), Int.add_zero]

/-- and back behind the place where it ends. -/
theorem change_finish (placed : Placed coords interval) :
    change coords interval (position coords interval.finish + 1) = -interval.delta := by
  have := placed.ordered
  rw [change, if_neg (by omega), if_pos rfl, Int.zero_add]

/-- With all entries in range, an interval leaves them so if it does at its own two places. -/
theorem inRange_change_iff (placed : Placed coords interval)
    (held : ∀ k, Tick.InRange (entry table k)) :
    (∀ k, Tick.InRange (entry table k + change coords interval k)) ↔
      Tick.InRange (entry table (position coords interval.start) + interval.delta) ∧
        Tick.InRange (entry table (position coords interval.finish + 1) + -interval.delta) := by
  constructor
  · intro each
    have opens := each (position coords interval.start)
    have closes := each (position coords interval.finish + 1)
    rw [change_start placed] at opens
    rw [change_finish placed] at closes
    exact ⟨opens, closes⟩
  · rintro ⟨opens, closes⟩ k
    by_cases start : k = position coords interval.start
    · rw [start, change_start placed]
      exact opens
    · by_cases finish : k = position coords interval.finish + 1
      · rw [finish, change_finish placed]
        exact closes
      · rw [change, if_neg start, if_neg finish, Int.add_zero, Int.add_zero]
        exact held k

/-- An interval that is entered changes the table by its own changes. -/
theorem enter_eq_ok {next : Array Int} (entered : enter coords table interval = .ok next) :
    next.size = table.size ∧ ∀ k, entry next k = entry table k + change coords interval k := by
  rw [enter] at entered
  split at entered
  · cases entered
  · rename_i opened start
    obtain ⟨size, entries⟩ := addAt_eq_ok start
    obtain ⟨size', entries'⟩ := addAt_eq_ok entered
    refine ⟨size'.trans size, fun k => ?_⟩
    rw [entries', entries, change, Int.add_assoc]

/-- An interval is entered exactly if it leaves every entry in range. -/
theorem enter_ok_iff (placed : Placed coords interval) (size : table.size = coords.size + 1)
    (held : ∀ k, Tick.InRange (entry table k)) :
    (∃ next, enter coords table interval = .ok next) ↔
      ∀ k, Tick.InRange (entry table k + change coords interval k) := by
  rw [inRange_change_iff placed held, enter]
  have ordered := placed.ordered
  have inside := placed.inside
  rw [addAt_inside interval.delta (by omega)]
  by_cases opens : Tick.InRange (entry table (position coords interval.start) + interval.delta)
  · rw [if_pos opens]
    -- The two places differ, so the second sum starts from what the table held at first.
    have untouched : entry (table.setIfInBounds (position coords interval.start)
        (entry table (position coords interval.start) + interval.delta))
          (position coords interval.finish + 1) =
        entry table (position coords interval.finish + 1) := by
      have apart : position coords interval.start ≠ position coords interval.finish + 1 := by omega
      simp [entry, apart]
    have reaches : position coords interval.finish + 1 <
        (table.setIfInBounds (position coords interval.start)
          (entry table (position coords interval.start) + interval.delta)).size := by
      rw [Array.size_setIfInBounds]
      omega
    simp only [addAt_inside (-interval.delta) reaches, untouched, opens, true_and]
    by_cases closes : Tick.InRange
        (entry table (position coords interval.finish + 1) + -interval.delta)
    · simp [closes]
    · simp [closes]
  · simp [opens]

theorem enter_error {defect : Defect} (placed : Placed coords interval)
    (size : table.size = coords.size + 1) (stopped : enter coords table interval = .error defect) :
    defect = .overflow := by
  have ordered := placed.ordered
  have inside := placed.inside
  rw [enter] at stopped
  split at stopped
  · rename_i first opened
    rw [addAt_inside _ (by omega)] at opened
    split at opened
    · cases opened
    · cases opened
      cases stopped
      rfl
  · rename_i opened opens
    have size' := (addAt_eq_ok opens).1
    rw [addAt_inside _ (by omega)] at stopped
    split at stopped
    · cases stopped
    · cases stopped
      rfl

/-- All intervals together change it by the sum of theirs. -/
theorem foldlM_enter_eq_ok {next : Array Int}
    (filled : intervals.foldlM (enter coords) table = .ok next) :
    next.size = table.size ∧
      ∀ k, entry next k = entry table k + (intervals.map (change coords · k)).sum := by
  induction intervals generalizing table with
  | nil =>
      cases filled
      exact ⟨rfl, fun k => by simp⟩
  | cons interval rest ih =>
      rw [List.foldlM_cons] at filled
      cases entered : enter coords table interval with
      | error defect =>
          rw [entered] at filled
          cases filled
      | ok opened =>
          rw [entered] at filled
          obtain ⟨size, entries⟩ := enter_eq_ok entered
          obtain ⟨size', entries'⟩ := ih filled
          refine ⟨size'.trans size, fun k => ?_⟩
          rw [entries', entries, List.map_cons, List.sum_cons, Int.add_assoc]

/-- Intervals are entered exactly if each first part of them leaves every entry in range. -/
theorem foldlM_enter_ok_iff (placed : ∀ interval ∈ intervals, Placed coords interval)
    (size : table.size = coords.size + 1) (held : ∀ k, Tick.InRange (entry table k)) :
    (∃ next, intervals.foldlM (enter coords) table = .ok next) ↔
      ∀ front, front <+: intervals → ∀ k,
        Tick.InRange (entry table k + (front.map (change coords · k)).sum) := by
  induction intervals generalizing table with
  | nil =>
      constructor
      · intro _ front none_left k
        rw [List.prefix_nil.mp none_left]
        simpa using held k
      · intro _
        exact ⟨table, rfl⟩
  | cons interval rest ih =>
      have here := placed interval List.mem_cons_self
      have later : ∀ i ∈ rest, Placed coords i := fun i hi => placed i (List.mem_cons_of_mem _ hi)
      have one_ok := enter_ok_iff here size held
      rw [List.foldlM_cons]
      cases entered : enter coords table interval with
      | error defect =>
          constructor
          · rintro ⟨next, filled⟩
            cases filled
          · intro each
            have first := each [interval] (List.prefix_append [interval] rest)
            simp only [List.map_singleton, List.sum_singleton] at first
            obtain ⟨next, ok⟩ := one_ok.mpr first
            rw [entered] at ok
            cases ok
      | ok opened =>
          obtain ⟨size', entries⟩ := enter_eq_ok entered
          have held' : ∀ k, Tick.InRange (entry opened k) := by
            intro k
            rw [entries]
            exact one_ok.mp ⟨opened, entered⟩ k
          refine (ih later (size'.trans size) held').trans ?_
          simp only [entries]
          constructor
          · intro each front here k
            rcases List.prefix_cons_iff.mp here with rfl | ⟨front, rfl, more⟩
            · simpa using held k
            · rw [List.map_cons, List.sum_cons, ← Int.add_assoc]
              exact each front more k
          · intro each front more k
            have longer := each (interval :: front) (List.prefix_cons_inj interval |>.mpr more) k
            rwa [List.map_cons, List.sum_cons, ← Int.add_assoc] at longer

theorem foldlM_enter_error {defect : Defect}
    (placed : ∀ interval ∈ intervals, Placed coords interval) (size : table.size = coords.size + 1)
    (stopped : intervals.foldlM (enter coords) table = .error defect) : defect = .overflow := by
  induction intervals generalizing table with
  | nil => cases stopped
  | cons interval rest ih =>
      have here := placed interval List.mem_cons_self
      have later : ∀ i ∈ rest, Placed coords i := fun i hi => placed i (List.mem_cons_of_mem _ hi)
      rw [List.foldlM_cons] at stopped
      cases entered : enter coords table interval with
      | error first =>
          rw [entered] at stopped
          cases stopped
          exact enter_error here size entered
      | ok opened =>
          rw [entered] at stopped
          exact ih later ((enter_eq_ok entered).1.trans size) stopped

/-! ### Running sums -/

/-- In the running sums an interval is on from its start up to its finish. -/
theorem prefix_change (placed : Placed coords interval) (k : Nat) :
    ∑ j ∈ Finset.range (k + 1), change coords interval j =
      if position coords interval.start ≤ k ∧ k ≤ position coords interval.finish then
        interval.delta
      else 0 := by
  have := placed.ordered
  simp only [change, Finset.sum_add_distrib, Finset.sum_ite_eq', Finset.mem_range]
  split <;> split <;> split <;> omega

end Entering

/-- The points have the coordinates for times and the sums up to them for counts. -/
theorem accumulate_eq_ok {count : Int} {pairs : List (Int × Int)} {points : List OverlapPoint}
    (summed : accumulate count pairs = .ok points) {changes : Nat → Int}
    (listed : ∀ k (h : k < pairs.length), pairs[k].2 = changes k) :
    points.map OverlapPoint.time = pairs.map Prod.fst ∧
      ∀ k (h : k < points.length),
        points[k].count = count + ∑ j ∈ Finset.range (k + 1), changes j := by
  induction pairs generalizing count points changes with
  | nil =>
      cases summed
      exact ⟨rfl, fun k h => by simp at h⟩
  | cons pair rest ih =>
      obtain ⟨time, amount⟩ := pair
      have first : amount = changes 0 := listed 0 (by simp)
      rw [accumulate] at summed
      split at summed
      · cases summed
      · rename_i sum here
        obtain rfl := checked_eq_ok here
        split at summed
        · cases summed
        · rename_i later after
          cases summed
          have listed_after : ∀ k (h : k < rest.length), rest[k].2 = changes (k + 1) :=
            fun k h => listed (k + 1) (by simpa using h)
          obtain ⟨times, counts⟩ := ih after listed_after
          refine ⟨by simp [times], fun k h => ?_⟩
          cases k with
          | zero => simp [first]
          | succ k =>
              rw [List.getElem_cons_succ, counts k (by simpa using h),
                Finset.sum_range_succ' _ (k + 1), first]
              omega

/-- One entry more is added up exactly if the sum with it is in range and the rest is added up. -/
theorem accumulate_cons_ok_iff {count time amount : Int} {rest : List (Int × Int)} :
    (∃ points, accumulate count ((time, amount) :: rest) = .ok points) ↔
      Tick.InRange (count + amount) ∧ ∃ points, accumulate (count + amount) rest = .ok points := by
  rw [accumulate, Tick.checked]
  by_cases range : Tick.InRange (count + amount)
  · cases summed : accumulate (count + amount) rest with
    | error defect => simp [range, summed]
    | ok points => simp [range, summed]
  · simp [range]

/-- The entries are added up exactly if each sum of the first of them is in range. -/
theorem accumulate_ok_iff {count : Int} {pairs : List (Int × Int)} {changes : Nat → Int}
    (listed : ∀ k (h : k < pairs.length), pairs[k].2 = changes k) :
    (∃ points, accumulate count pairs = .ok points) ↔
      ∀ k < pairs.length, Tick.InRange (count + ∑ j ∈ Finset.range (k + 1), changes j) := by
  induction pairs generalizing count changes with
  | nil => simp [accumulate]
  | cons pair rest ih =>
      obtain ⟨time, amount⟩ := pair
      have first : amount = changes 0 := listed 0 (by simp)
      have later : (∃ points, accumulate (count + amount) rest = .ok points) ↔
          ∀ k < rest.length, Tick.InRange
            (count + amount + ∑ j ∈ Finset.range (k + 1), changes (j + 1)) :=
        ih fun k h => listed (k + 1) (by simpa using h)
      have shift : ∀ k, count + ∑ j ∈ Finset.range (k + 1 + 1), changes j =
          count + amount + ∑ j ∈ Finset.range (k + 1), changes (j + 1) := by
        intro k
        rw [Finset.sum_range_succ', first]
        omega
      rw [accumulate_cons_ok_iff, later]
      constructor
      · rintro ⟨range, each⟩ k within
        cases k with
        | zero => simpa [← first] using range
        | succ k =>
            rw [shift]
            exact each k (by simpa using within)
      · intro each
        constructor
        · have here := each 0 (by simp)
          rwa [Finset.sum_range_one, ← first] at here
        · intro k within
          rw [← shift]
          exact each (k + 1) (by simpa using within)

/-- Only a sum out of range ends the counting. -/
theorem accumulate_error {count : Int} {pairs : List (Int × Int)} {defect : Defect}
    (stopped : accumulate count pairs = .error defect) : defect = .overflow := by
  induction pairs generalizing count with
  | nil => cases stopped
  | cons pair rest ih =>
      rw [accumulate, Tick.checked] at stopped
      by_cases range : Tick.InRange (count + pair.2)
      · rw [if_pos range] at stopped
        simp only at stopped
        split at stopped
        · rename_i first summed
          cases stopped
          exact ih summed
        · cases stopped
      · rw [if_neg range] at stopped
        cases stopped
        rfl

end GridReport.Overlap
