import GridReport.Proofs.Ascending
import GridReport.Proofs.Differences

/-!
The sweep counts what it is meant to count.

The counts come from a table of differences over the sorted distinct end points, and the running
sums of the table are the counts of the live intervals. A sweep returns exactly if every sum on the
way to the table and every count is in range, and they are as long as the deltas together are.

* `position_getElem` — the search finds every coordinate at its place.
* `sum_changes` — the running sums of all changes are the counts of the live intervals.
* `count_ok_iff`, `count_error` — when a sweep returns, and what it stops for.
* `count_eq_ok`, `count_returns` — the counts at the coordinates.
* `count_agrees_with_live` — the sweep agrees with the definition.
-/

namespace GridReport

/-- The interval counts at the time; both ends are included. -/
def Interval.live (interval : Interval) (time : Int) : Bool :=
  interval.start ≤ time && time ≤ interval.finish

namespace Overlap

/-! ### The plain count -/

/-- The deltas of the intervals that are live at the time, added up. -/
def liveSum (intervals : List Interval) (time : Int) : Int :=
  ((intervals.filter (·.live time)).map Interval.delta).sum

/-- The sizes of all deltas, added up. -/
def totalSize (intervals : List Interval) : Nat :=
  (intervals.map fun interval => interval.delta.natAbs).sum

/-- The first interval counts if it is live at the time. -/
theorem liveSum_cons (interval : Interval) (rest : List Interval) (time : Int) :
    liveSum (interval :: rest) time =
      (if interval.live time then interval.delta else 0) + liveSum rest time := by
  simp only [liveSum, List.filter_cons]
  split
  · rw [List.map_cons, List.sum_cons]
  · rw [Int.zero_add]

theorem totalSize_cons (interval : Interval) (rest : List Interval) :
    totalSize (interval :: rest) = interval.delta.natAbs + totalSize rest := rfl

theorem totalSize_append (front back : List Interval) :
    totalSize (front ++ back) = totalSize front + totalSize back := by
  simp [totalSize]

/-- No count is larger than all deltas together. -/
theorem natAbs_liveSum_le (intervals : List Interval) (time : Int) :
    (liveSum intervals time).natAbs ≤ totalSize intervals := by
  induction intervals with
  | nil => simp [liveSum]
  | cons interval rest ih =>
      rw [liveSum_cons, totalSize_cons]
      split <;> omega

/-! ### The search -/

/-- The search narrows down on the place of a coordinate as long as the stretch holds it. -/
theorem bisect_getElem {coords : Array Int} {k : Nat} (hk : k < coords.size)
    (ascending : coords.toList.Pairwise (· < ·)) {low high : Nat} (above : low ≤ k)
    (below : k ≤ high) (inside : high ≤ coords.size) :
    bisect coords coords[k] low high = k := by
  have order : ∀ i j (hi : i < coords.size) (hj : j < coords.size), i < j →
      coords[i] < coords[j] := by
    intro i j hi hj hij
    exact List.pairwise_iff_getElem.mp ascending i j hi hj hij
  fun_induction bisect coords coords[k] low high with
  | case1 low high stretch middle there hthere smaller ih =>
      obtain ⟨hmiddle, rfl⟩ := Array.getElem?_eq_some_iff.mp hthere
      have right : middle < k := by
        rcases Nat.lt_trichotomy middle k with h | h | h
        · exact h
        · simp [h] at smaller
        · have := order k middle hk hmiddle h
          omega
      exact ih right below inside
  | case2 low high stretch middle there hthere greater ih =>
      obtain ⟨hmiddle, rfl⟩ := Array.getElem?_eq_some_iff.mp hthere
      have left : k ≤ middle := by
        by_contra h
        exact greater (order middle k hmiddle hk (by omega))
      exact ih above left (by omega)
  | case3 low high stretch middle absent ih =>
      have := Array.getElem?_eq_none_iff.mp absent
      omega
  | case4 low high empty => omega

theorem position_getElem {coords : Array Int} {k : Nat} (hk : k < coords.size)
    (ascending : coords.toList.Pairwise (· < ·)) : position coords coords[k] = k :=
  bisect_getElem hk ascending (Nat.zero_le k) (Nat.le_of_lt hk) (Nat.le_refl _)

/-! ### The coordinates -/

theorem coordinates_ascending (intervals : List Interval) :
    (coordinates intervals).toArray.toList.Pairwise (· < ·) :=
  Ascending.distinct_ascending (fun _ _ => decide_eq_true_iff) _

theorem mem_coordinates {intervals : List Interval} {time : Int} :
    time ∈ coordinates intervals ↔
      ∃ interval ∈ intervals, time = interval.start ∨ time = interval.finish := by
  simp [coordinates, Ascending.mem_distinct]

/-- The ends of the intervals are the coordinates that the sweep runs over. -/
theorem ends_mem_coordinates (intervals : List Interval) :
    ∀ interval ∈ intervals, interval.start ∈ (coordinates intervals).toArray ∧
      interval.finish ∈ (coordinates intervals).toArray := by
  intro interval h
  simp only [List.mem_toArray, mem_coordinates]
  exact ⟨⟨interval, h, .inl rfl⟩, ⟨interval, h, .inr rfl⟩⟩

section Coordinates

variable {coords : Array Int} {value : Int}

/-- The search finds what is there. -/
theorem getElem?_position (ascending : coords.toList.Pairwise (· < ·)) (h : value ∈ coords) :
    coords[position coords value]? = some value := by
  obtain ⟨k, hk, rfl⟩ := Array.mem_iff_getElem.mp h
  rw [position_getElem hk ascending]
  exact Array.getElem?_eq_getElem hk

/-- Places compare as the coordinates do. -/
theorem position_le_position_iff (ascending : coords.toList.Pairwise (· < ·)) {a b : Int}
    (ha : a ∈ coords) (hb : b ∈ coords) : position coords a ≤ position coords b ↔ a ≤ b := by
  obtain ⟨i, hi, rfl⟩ := Array.mem_iff_getElem.mp ha
  obtain ⟨j, hj, rfl⟩ := Array.mem_iff_getElem.mp hb
  rw [position_getElem hi ascending, position_getElem hj ascending]
  have order := List.pairwise_iff_getElem.mp ascending
  constructor
  · intro hij
    rcases Nat.lt_or_eq_of_le hij with h | rfl
    · exact Int.le_of_lt (order i j hi hj h)
    · exact Int.le_refl _
  · intro hij
    by_contra h
    have := order j i hj hi (by omega)
    simp only [Array.getElem_toList] at this
    omega

end Coordinates

section Changes

variable {coords : Array Int} {intervals : List Interval} {interval : Interval}

/-- An interval whose ends are coordinates has its place in the table. -/
theorem placed_of_mem (ascending : coords.toList.Pairwise (· < ·))
    (hstart : interval.start ∈ coords) (hfinish : interval.finish ∈ coords)
    (forward : interval.start ≤ interval.finish) : Placed coords interval :=
  ⟨(position_le_position_iff ascending hstart hfinish).mpr forward,
    (Array.getElem?_eq_some_iff.mp (getElem?_position ascending hfinish)).1⟩

/-- Added up to the place of a coordinate, the changes of an interval are its delta if it is live
there. -/
theorem prefix_change_live (ascending : coords.toList.Pairwise (· < ·))
    (hstart : interval.start ∈ coords) (hfinish : interval.finish ∈ coords)
    (forward : interval.start ≤ interval.finish) {k : Nat} (hk : k < coords.size) :
    ∑ j ∈ Finset.range (k + 1), change coords interval j =
      if interval.live coords[k] then interval.delta else 0 := by
  have here : coords[k] ∈ coords := Array.getElem_mem hk
  have opens := position_le_position_iff ascending hstart here
  have closes := position_le_position_iff ascending here hfinish
  rw [position_getElem hk ascending] at opens closes
  rw [prefix_change (placed_of_mem ascending hstart hfinish forward)]
  simp only [opens, closes, Interval.live, Bool.and_eq_true, decide_eq_true_eq]

/-- The running sums of all changes are the counts of the live intervals. -/
theorem sum_changes (ascending : coords.toList.Pairwise (· < ·))
    (ends : ∀ interval ∈ intervals, interval.start ∈ coords ∧ interval.finish ∈ coords)
    (forward : ∀ interval ∈ intervals, interval.start ≤ interval.finish)
    {k : Nat} (hk : k < coords.size) :
    ∑ j ∈ Finset.range (k + 1), (intervals.map (change coords · j)).sum =
      liveSum intervals coords[k] := by
  induction intervals with
  | nil => simp [liveSum]
  | cons interval rest ih =>
      obtain ⟨hstart, hfinish⟩ := ends interval List.mem_cons_self
      have hrest := ih (fun i hi => ends i (List.mem_cons_of_mem _ hi))
        (fun i hi => forward i (List.mem_cons_of_mem _ hi))
      simp only [List.map_cons, List.sum_cons, Finset.sum_add_distrib]
      rw [hrest, liveSum_cons, prefix_change_live ascending hstart hfinish
        (forward interval List.mem_cons_self) hk]

/-- An interval changes the count by its delta at most. -/
theorem natAbs_change_le (placed : Placed coords interval) (k : Nat) :
    (change coords interval k).natAbs ≤ interval.delta.natAbs := by
  have := placed.ordered
  simp only [change]
  split <;> split <;> omega

/-- No entry is larger than all deltas together. -/
theorem natAbs_sum_change_le (placed : ∀ interval ∈ intervals, Placed coords interval) (k : Nat) :
    (intervals.map (change coords · k)).sum.natAbs ≤ totalSize intervals := by
  induction intervals with
  | nil => simp
  | cons interval rest ih =>
      have here := natAbs_change_le (placed interval List.mem_cons_self) k
      have later := ih fun i hi => placed i (List.mem_cons_of_mem _ hi)
      rw [List.map_cons, List.sum_cons, totalSize_cons]
      omega

end Changes

/-! ### When a sweep returns -/

/-- Entered in this order, the intervals leave every entry in range, each after the ones in front
of it. -/
def Enterable (intervals : List Interval) : Prop :=
  ∀ front, front <+: intervals → ∀ k,
    Tick.InRange (front.map (change (coordinates intervals).toArray · k)).sum

/-- Every count of the intervals can be held. -/
def Countable (intervals : List Interval) : Prop :=
  ∀ time ∈ coordinates intervals, Tick.InRange (liveSum intervals time)

section Count

variable {intervals : List Interval} {points : List OverlapPoint}

theorem placed_coordinates (forward : ∀ interval ∈ intervals, interval.start ≤ interval.finish) :
    ∀ interval ∈ intervals, Placed (coordinates intervals).toArray interval := by
  intro interval here
  obtain ⟨start, finish⟩ := ends_mem_coordinates intervals interval here
  exact placed_of_mem (coordinates_ascending intervals) start finish (forward interval here)

theorem orBreak_eq_ok {α : Type} {step : Except Defect α} {a : α} :
    orBreak step = .ok a ↔ step = .ok a := by
  cases step <;> simp [orBreak]

/-- Where no interval ends before it starts, the sweep is its two loops. -/
theorem count_of_forward (forward : ∀ interval ∈ intervals, interval.start ≤ interval.finish) :
    count intervals = orBreak (do
      let table ← differences (coordinates intervals).toArray intervals
      accumulate 0 ((coordinates intervals).zip table.toList)) := by
  have none_reversed : intervals.find? (fun i => i.finish < i.start) = none := by
    refine List.find?_eq_none.mpr fun interval here => ?_
    simpa using forward interval here
  simp only [count, none_reversed]

/-- A table that could be filled holds the changes of all intervals. -/
theorem differences_eq_ok {coords table : Array Int}
    (filled : differences coords intervals = .ok table) :
    table.size = coords.size + 1 ∧
      ∀ k, entry table k = (intervals.map (change coords · k)).sum := by
  obtain ⟨size, entries⟩ := foldlM_enter_eq_ok filled
  refine ⟨size.trans Array.size_replicate, fun k => ?_⟩
  rw [entries, entry_replicate, Int.zero_add]

/-- The first loop ends exactly if every entry of its table stays in range. -/
theorem differences_ok_iff (forward : ∀ interval ∈ intervals, interval.start ≤ interval.finish) :
    (∃ table, differences (coordinates intervals).toArray intervals = .ok table) ↔
      Enterable intervals := by
  have held : ∀ k, Tick.InRange
      (entry (Array.replicate ((coordinates intervals).toArray.size + 1) 0) k) := by
    intro k
    rw [entry_replicate]
    decide
  have entered := foldlM_enter_ok_iff (placed_coordinates forward) Array.size_replicate held
  simp only [entry_replicate, Int.zero_add] at entered
  exact entered

/-- Paired with the coordinates, the entries are added up in their order. -/
theorem getElem_zip_entry {coords : List Int} {table : Array Int} :
    ∀ k (h : k < (coords.zip table.toList).length),
      (coords.zip table.toList)[k].2 = entry table k := by
  intro k h
  have inside : k < table.size := by simpa using List.lt_length_right_of_zip h
  simp [entry, inside]

/-- The running sums over a filled table are the counts at the coordinates. -/
theorem sum_entries {table : Array Int}
    (forward : ∀ interval ∈ intervals, interval.start ≤ interval.finish)
    (filled : differences (coordinates intervals).toArray intervals = .ok table) {k : Nat}
    (within : k < (coordinates intervals).length) :
    ∑ j ∈ Finset.range (k + 1), entry table j = liveSum intervals (coordinates intervals)[k] := by
  simp only [(differences_eq_ok filled).2]
  exact sum_changes (coordinates_ascending intervals) (ends_mem_coordinates intervals) forward
    (by simpa using within)

/-- The table of all intervals is added up exactly if every count can be held. -/
theorem accumulate_table_ok_iff {table : Array Int}
    (forward : ∀ interval ∈ intervals, interval.start ≤ interval.finish)
    (filled : differences (coordinates intervals).toArray intervals = .ok table) :
    (∃ points, accumulate 0 ((coordinates intervals).zip table.toList) = .ok points) ↔
      Countable intervals := by
  have length : ((coordinates intervals).zip table.toList).length =
      (coordinates intervals).length := by
    have size := (differences_eq_ok filled).1
    rw [List.size_toArray] at size
    simp [size]
  rw [accumulate_ok_iff getElem_zip_entry, length]
  constructor
  · intro each time here
    obtain ⟨k, within, rfl⟩ := List.mem_iff_getElem.mp here
    have sum_here := each k within
    rwa [Int.zero_add, sum_entries forward filled within] at sum_here
  · intro each k within
    rw [Int.zero_add, sum_entries forward filled within]
    exact each _ (List.getElem_mem within)

/-- A sweep returns exactly if all its sums are in range: those on the way, and the counts. -/
theorem count_ok_iff (forward : ∀ interval ∈ intervals, interval.start ≤ interval.finish) :
    (∃ points, count intervals = .ok points) ↔ Enterable intervals ∧ Countable intervals := by
  rw [count_of_forward forward]
  simp only [orBreak_eq_ok]
  cases filled : differences (coordinates intervals).toArray intervals with
  | error defect =>
      constructor
      · rintro ⟨points, returned⟩
        cases returned
      · rintro ⟨enterable, -⟩
        obtain ⟨table, ok⟩ := (differences_ok_iff forward).mpr enterable
        rw [filled] at ok
        cases ok
  | ok table =>
      have enterable := (differences_ok_iff forward).mp ⟨table, filled⟩
      exact (accumulate_table_ok_iff forward filled).trans (by simp [enterable])

/-- A sweep over intervals that do not end before they start stops for an overflow only. -/
theorem count_error {failure : Failure}
    (forward : ∀ interval ∈ intervals, interval.start ≤ interval.finish)
    (stopped : count intervals = .error failure) : failure = .broken .overflow := by
  rw [count_of_forward forward] at stopped
  cases filled : differences (coordinates intervals).toArray intervals with
  | error defect =>
      rw [filled] at stopped
      cases stopped
      rw [foldlM_enter_error (placed_coordinates forward) Array.size_replicate filled]
  | ok table =>
      rw [filled] at stopped
      cases summed : accumulate 0 ((coordinates intervals).zip table.toList) with
      | error defect =>
          simp only [bind, Except.bind, summed] at stopped
          cases stopped
          rw [accumulate_error summed]
      | ok points =>
          simp only [bind, Except.bind, summed] at stopped
          cases stopped

/-- If an entry or a count does not fit, the sweep breaks off with an overflow. -/
theorem count_overflows (forward : ∀ interval ∈ intervals, interval.start ≤ interval.finish)
    (unfit : ¬ (Enterable intervals ∧ Countable intervals)) :
    count intervals = .error (.broken .overflow) := by
  cases counted : count intervals with
  | ok points => exact absurd ((count_ok_iff forward).mp ⟨points, counted⟩) unfit
  | error failure => rw [count_error forward counted]

/-! ### What a sweep returns -/

/-- A sweep that returns has filled its table and added it up. -/
theorem count_steps (counted : count intervals = .ok points) :
    (∀ interval ∈ intervals, interval.start ≤ interval.finish) ∧
      ∃ table, differences (coordinates intervals).toArray intervals = .ok table ∧
        accumulate 0 ((coordinates intervals).zip table.toList) = .ok points := by
  rw [count] at counted
  split at counted
  · cases counted
  rename_i none_reversed
  refine ⟨by simpa using none_reversed, ?_⟩
  have counted : (do
      let table ← differences (coordinates intervals).toArray intervals
      accumulate 0 ((coordinates intervals).zip table.toList)) = .ok points :=
    orBreak_eq_ok.mp counted
  cases filled : differences (coordinates intervals).toArray intervals with
  | error defect =>
      rw [filled] at counted
      cases counted
  | ok table =>
      rw [filled] at counted
      exact ⟨table, rfl, counted⟩

/-- Whatever the sweep returns stands at the coordinates, and counts the live intervals there. -/
theorem count_eq_ok (counted : count intervals = .ok points) :
    points.map OverlapPoint.time = coordinates intervals ∧
      ∀ point ∈ points, point.count = liveSum intervals point.time := by
  obtain ⟨forward, table, filled, summed⟩ := count_steps counted
  have size := (differences_eq_ok filled).1
  rw [List.size_toArray] at size
  obtain ⟨times, counts⟩ := accumulate_eq_ok summed getElem_zip_entry
  rw [List.map_fst_zip (by simp [size])] at times
  refine ⟨times, fun point here => ?_⟩
  obtain ⟨k, hk, rfl⟩ := List.mem_iff_getElem.mp here
  have inside : k < (coordinates intervals).length := by
    rw [← times, List.length_map]
    exact hk
  have time : points[k].time = (coordinates intervals)[k] := by
    have same := List.getElem_of_eq times (by simpa using hk)
    rwa [List.getElem_map] at same
  rw [counts k hk, time, Int.zero_add, sum_entries forward filled inside]

/-- A sweep that returns lists the counts at the coordinates. -/
theorem count_returns (forward : ∀ interval ∈ intervals, interval.start ≤ interval.finish)
    (enterable : Enterable intervals) (countable : Countable intervals) :
    count intervals =
      .ok ((coordinates intervals).map fun time => ⟨time, liveSum intervals time⟩) := by
  obtain ⟨points, returned⟩ := (count_ok_iff forward).mpr ⟨enterable, countable⟩
  obtain ⟨times, counts⟩ := count_eq_ok returned
  have listed :
      points = (coordinates intervals).map fun time => ⟨time, liveSum intervals time⟩ := by
    calc points = points.map fun point => ⟨point.time, liveSum intervals point.time⟩ := by
          refine (List.map_id' points).symm.trans (List.map_congr_left fun point here => ?_)
          rw [← counts point here]
      _ = (points.map OverlapPoint.time).map fun time => ⟨time, liveSum intervals time⟩ := by
          rw [List.map_map]
          rfl
      _ = _ := by rw [times]
  rw [returned, listed]

/-! ### Deltas that fit together -/

theorem inRange_of_natAbs_le {n : Int} {bound : Nat} (h : n.natAbs ≤ bound)
    (small : (bound : Int) ≤ Tick.greatest) : Tick.InRange n := by
  simp only [Tick.InRange, Tick.least, Tick.greatest] at small ⊢
  omega

/-- A total size in range keeps every entry in range. -/
theorem enterable_of_small (forward : ∀ interval ∈ intervals, interval.start ≤ interval.finish)
    (small : (totalSize intervals : Int) ≤ Tick.greatest) : Enterable intervals := by
  have placed := placed_coordinates forward
  rintro front ⟨back, rfl⟩ k
  have entry_le := natAbs_sum_change_le (fun i hi => placed i (List.mem_append_left back hi)) k
  refine inRange_of_natAbs_le (entry_le.trans ?_) small
  rw [totalSize_append]
  exact Nat.le_add_right _ _

/-- Intervals that do not end before they start, with deltas that fit together, have their counts at
the coordinates. -/
theorem count_ok (forward : ∀ interval ∈ intervals, interval.start ≤ interval.finish)
    (small : (totalSize intervals : Int) ≤ Tick.greatest) :
    ∃ points, count intervals = .ok points ∧
      points.map OverlapPoint.time = coordinates intervals ∧
      ∀ point ∈ points, point.count = liveSum intervals point.time := by
  have countable : Countable intervals := fun time _ =>
    inRange_of_natAbs_le (natAbs_liveSum_le intervals time) small
  obtain ⟨points, returned⟩ :=
    (count_ok_iff forward).mpr ⟨enterable_of_small forward small, countable⟩
  exact ⟨points, returned, count_eq_ok returned⟩

/-- Groups that can be counted one by one are counted together, each under its key. -/
theorem countByKey_ok (groups : List (String × List Interval))
    (each : ∀ group ∈ groups, ∃ points, count group.2 = .ok points) :
    ∃ results, countByKey groups = .ok results ∧
      results.map Prod.fst = groups.map Prod.fst ∧
      ∀ result ∈ results, ∃ group ∈ groups, group.1 = result.1 ∧ count group.2 = .ok result.2 := by
  induction groups with
  | nil => exact ⟨[], rfl, rfl, fun result h => by cases h⟩
  | cons group rest ih =>
      obtain ⟨points, hpoints⟩ := each group List.mem_cons_self
      obtain ⟨results, hresults, hkeys, hcounts⟩ :=
        ih fun g hg => each g (List.mem_cons_of_mem _ hg)
      refine ⟨(group.1, points) :: results, ?_, by simp [hkeys], fun result h => ?_⟩
      · rw [countByKey] at hresults ⊢
        rw [List.mapM_cons, hpoints, hresults]
        rfl
      · rcases List.mem_cons.mp h with rfl | h
        · exact ⟨group, List.mem_cons_self, rfl, hpoints⟩
        · obtain ⟨g, hg, hkey, hcount⟩ := hcounts result h
          exact ⟨g, List.mem_cons_of_mem _ hg, hkey, hcount⟩

/-- **The sweep agrees with the definition.** Intervals that do not end before they start, with
deltas that fit together, are counted without any sum out of range and without an entry that is not
there. The times are the starts and ends, strictly ascending, and the count at each of them is the
sum of the deltas of the intervals that are live at it. The search finds every start and end. -/
theorem count_agrees_with_live (intervals : List Interval)
    (forward : ∀ interval ∈ intervals, interval.start ≤ interval.finish)
    (small : (totalSize intervals : Int) ≤ Tick.greatest) :
    (∃ points, count intervals = .ok points ∧
      (points.map OverlapPoint.time).Pairwise (· < ·) ∧
      (∀ time, time ∈ points.map OverlapPoint.time ↔
        ∃ interval ∈ intervals, time = interval.start ∨ time = interval.finish) ∧
      ∀ point ∈ points, point.count =
        ((intervals.filter fun interval =>
          interval.start ≤ point.time ∧ point.time ≤ interval.finish).map Interval.delta).sum) ∧
    ∀ interval ∈ intervals, ∀ value, value = interval.start ∨ value = interval.finish →
      (coordinates intervals).toArray[position (coordinates intervals).toArray value]? =
        some value := by
  obtain ⟨points, hpoints, htimes, hcounts⟩ := count_ok forward small
  refine ⟨⟨points, hpoints, ?_, ?_, ?_⟩, ?_⟩
  · rw [htimes]
    exact coordinates_ascending intervals
  · intro time
    rw [htimes]
    exact mem_coordinates
  · intro point h
    simpa [liveSum, Interval.live] using hcounts point h
  · intro interval h value hvalue
    have known : value ∈ (coordinates intervals).toArray :=
      List.mem_toArray.mpr (mem_coordinates.mpr ⟨interval, h, hvalue⟩)
    exact getElem?_position (coordinates_ascending intervals) known

/-- Shared ends, a point, a delta below zero, and no order. -/
def mixedIntervals : List Interval := [⟨5, 9, 2⟩, ⟨0, 5, -1⟩, ⟨9, 9, 3⟩, ⟨-4, 0, 1⟩]

theorem count_agrees_with_live_mixed :
    (∀ interval ∈ mixedIntervals, interval.start ≤ interval.finish) ∧
      (totalSize mixedIntervals : Int) ≤ Tick.greatest ∧
      ∃ points, count mixedIntervals = .ok points ∧
        (points.map OverlapPoint.time).Pairwise (· < ·) ∧
        ∀ point ∈ points, point.count =
          ((mixedIntervals.filter fun interval =>
            interval.start ≤ point.time ∧ point.time ≤ interval.finish).map
              Interval.delta).sum := by
  have forward : ∀ interval ∈ mixedIntervals, interval.start ≤ interval.finish := by decide
  have small : (totalSize mixedIntervals : Int) ≤ Tick.greatest := by decide
  obtain ⟨⟨points, hpoints, ascending, -, hcounts⟩, -⟩ :=
    count_agrees_with_live mixedIntervals forward small
  exact ⟨forward, small, points, hpoints, ascending, hcounts⟩

end Count

end Overlap

end GridReport
