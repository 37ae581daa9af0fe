import GridReport.Proofs.Groups
import GridReport.Proofs.Sweep
import GridReport.Replicas

/-!
Concurrent replicas, counted per storage element.

A replica is turned into an interval that cannot end before it starts and counts once. So whatever
the rows say, the sweep over each storage element has what it needs, and its counts are numbers of
rows.

* `horizonOf_latest` — without a horizon the latest timestamp of all rows is taken.
* `count_intervals` — the counts of one storage element.
* `concurrent_counts_rows` — all storage elements together.
-/

namespace GridReport.Replicas

/-- When a replica ends: at its removal, or at the limit if it was never removed, but not before its
creation. -/
def closes (limit : Int) (row : ReplicaLifetime) : Int :=
  max row.createdAt (row.removedAt.getD limit)

/-- The replica is there at the time. -/
def present (limit time : Int) (row : ReplicaLifetime) : Bool :=
  row.createdAt ≤ time && time ≤ closes limit row

/-! ### The horizon -/

/-- The timestamp is the latest one at which a replica of the rows was created or removed. -/
structure Latest (rows : List ReplicaLifetime) (time : Int) : Prop where
  occurs : ∃ row ∈ rows, row.createdAt = time ∨ row.removedAt = some time
  created : ∀ row ∈ rows, row.createdAt ≤ time
  removed : ∀ row ∈ rows, ∀ removal ∈ row.removedAt, removal ≤ time

theorem latest_occurs (row : ReplicaLifetime) :
    row.createdAt = latest row ∨ row.removedAt = some (latest row) := by
  rw [latest]
  cases row.removedAt with
  | none => exact .inl (Int.max_self _).symm
  | some removal =>
      rcases Int.le_total row.createdAt removal with h | h
      · exact .inr (congrArg some (Int.max_eq_left h).symm)
      · exact .inl (Int.max_eq_right h).symm

theorem le_latest (row : ReplicaLifetime) :
    row.createdAt ≤ latest row ∧ ∀ removal ∈ row.removedAt, removal ≤ latest row := by
  refine ⟨Int.le_max_right _ _, fun removal h => ?_⟩
  rw [latest, Option.mem_def.mp h]
  exact Int.le_max_left _ _

/-- The running maximum is one of the timestamps it runs over, and none of them is later. -/
theorem foldl_latest (start : Int) (rows : List ReplicaLifetime) :
    let horizon := rows.foldl (fun horizon row => max horizon (latest row)) start
    (horizon = start ∨ ∃ row ∈ rows, horizon = latest row) ∧
      start ≤ horizon ∧ ∀ row ∈ rows, latest row ≤ horizon := by
  induction rows generalizing start with
  | nil => exact ⟨.inl rfl, Int.le_refl _, fun row h => by cases h⟩
  | cons row rest ih =>
      obtain ⟨reached, above, each⟩ := ih (max start (latest row))
      refine ⟨?_, Int.le_trans (Int.le_max_left _ _) above, ?_⟩
      · rcases reached with h | ⟨other, hother, h⟩
        · rcases Int.le_total start (latest row) with hle | hle
          · exact .inr ⟨row, List.mem_cons_self, h.trans (Int.max_eq_right hle)⟩
          · exact .inl (h.trans (Int.max_eq_left hle))
        · exact .inr ⟨other, List.mem_cons_of_mem _ hother, h⟩
      · intro other hother
        rcases List.mem_cons.mp hother with rfl | hother
        · exact Int.le_trans (Int.le_max_right _ _) above
        · exact each other hother

/-- The horizon is the latest time that occurs. -/
theorem horizonOf_latest {rows : List ReplicaLifetime} (nonempty : rows ≠ []) :
    Latest rows (horizonOf rows) := by
  cases rows with
  | nil => exact absurd rfl nonempty
  | cons head tail =>
      obtain ⟨reached, above, each⟩ := foldl_latest (latest head) tail
      have bound : ∀ row ∈ head :: tail, latest row ≤ horizonOf (head :: tail) := by
        intro row hrow
        rcases List.mem_cons.mp hrow with rfl | hrow
        · exact above
        · exact each row hrow
      refine ⟨?_, ?_, ?_⟩
      · rcases reached with h | ⟨row, hrow, h⟩
        · refine ⟨head, List.mem_cons_self, ?_⟩
          rw [show horizonOf (head :: tail) = latest head from h]
          exact latest_occurs head
        · refine ⟨row, List.mem_cons_of_mem _ hrow, ?_⟩
          rw [show horizonOf (head :: tail) = latest row from h]
          exact latest_occurs row
      · exact fun row hrow => Int.le_trans (le_latest row).1 (bound row hrow)
      · exact fun row hrow removal h => Int.le_trans ((le_latest row).2 removal h) (bound row hrow)

/-! ### One storage element -/

section Counts

variable {limit : Int} {rows : List ReplicaLifetime}

/-- An interval ends at the removal, or at the horizon if there is none. -/
theorem finish_intervalOf (limit : Int) (row : ReplicaLifetime) :
    (intervalOf limit row).finish = closes limit row := Int.max_comm _ _

/-- It is live exactly while the replica is there. -/
theorem live_intervalOf (limit time : Int) (row : ReplicaLifetime) :
    (intervalOf limit row).live time = present limit time row := by
  rw [Interval.live, finish_intervalOf]
  rfl

/-- The deltas of replicas that are there at a time add up to their number. -/
theorem liveSum_intervals (limit time : Int) (rows : List ReplicaLifetime) :
    Overlap.liveSum (rows.map (intervalOf limit)) time = rows.countP (present limit time) := by
  induction rows with
  | nil => rfl
  | cons row rest ih =>
      rw [List.map_cons, Overlap.liveSum_cons, ih, live_intervalOf, List.countP_cons]
      split
      · simp [intervalOf, Int.add_comm]
      · simp

theorem totalSize_intervals (limit : Int) (rows : List ReplicaLifetime) :
    Overlap.totalSize (rows.map (intervalOf limit)) = rows.length := by
  induction rows with
  | nil => rfl
  | cons row rest ih =>
      rw [List.map_cons, Overlap.totalSize_cons, ih, List.length_cons, Nat.add_comm]
      rfl

/-- The points are the counts of the rows at each time one of them starts or ends. -/
structure Points (limit : Int) (rows : List ReplicaLifetime) (points : List OverlapPoint) :
    Prop where
  ascending : (points.map OverlapPoint.time).Pairwise (· < ·)
  times : ∀ time, time ∈ points.map OverlapPoint.time ↔
    ∃ row ∈ rows, time = row.createdAt ∨ time = closes limit row
  counts : ∀ point ∈ points, point.count = rows.countP (present limit point.time)

/-- Whatever the rows say, they can be counted. -/
theorem count_intervals (few : (rows.length : Int) ≤ Tick.greatest) :
    ∃ points, Overlap.count (rows.map (intervalOf limit)) = .ok points ∧
      Points limit rows points := by
  have forward : ∀ interval ∈ rows.map (intervalOf limit), interval.start ≤ interval.finish := by
    intro interval h
    obtain ⟨row, -, rfl⟩ := List.mem_map.mp h
    exact Int.le_max_right _ _
  have small : (Overlap.totalSize (rows.map (intervalOf limit)) : Int) ≤ Tick.greatest := by
    rwa [totalSize_intervals]
  obtain ⟨points, hpoints, htimes, hcounts⟩ := Overlap.count_ok forward small
  refine ⟨points, hpoints, ?_, ?_, ?_⟩
  · rw [htimes]
    exact Overlap.coordinates_ascending _
  · intro time
    rw [htimes, Overlap.mem_coordinates]
    constructor
    · rintro ⟨interval, h, htime⟩
      obtain ⟨row, hrow, rfl⟩ := List.mem_map.mp h
      rw [finish_intervalOf] at htime
      exact ⟨row, hrow, htime⟩
    · rintro ⟨row, hrow, htime⟩
      rw [← finish_intervalOf] at htime
      exact ⟨intervalOf limit row, List.mem_map_of_mem hrow, htime⟩
  · intro point h
    rw [hcounts point h, liveSum_intervals]

end Counts

/-! ### All storage elements -/

/-- The rows of a storage element. -/
def rowsOf (rows : List ReplicaLifetime) (element : String) : List ReplicaLifetime :=
  rows.filter fun row => row.storageElement == element

section Concurrent

variable {rows : List ReplicaLifetime}

/-- One group for each storage element that occurs, with the counts of its rows. -/
theorem concurrent_ok (horizon : Option Int) (few : (rows.length : Int) ≤ Tick.greatest) :
    ∃ groups, concurrent rows horizon = .ok groups ∧
      groups.map Prod.fst = Keyed.keys (rows.map ReplicaLifetime.storageElement) ∧
      ∀ group ∈ groups,
        Points (horizon.getD (horizonOf rows)) (rowsOf rows group.1) group.2 := by
  have counted : ∀ element, ∃ points,
      Overlap.count ((rowsOf rows element).map (intervalOf (horizon.getD (horizonOf rows)))) =
          .ok points ∧
        Points (horizon.getD (horizonOf rows)) (rowsOf rows element) points := by
    intro element
    have := List.length_filter_le (fun row => row.storageElement == element) rows
    refine count_intervals ?_
    rw [rowsOf]
    omega
  have members : ∀ pair ∈ intervals rows horizon,
      pair.2 = (rowsOf rows pair.1).map (intervalOf (horizon.getD (horizonOf rows))) := by
    intro pair h
    obtain ⟨group, hgroup, rfl⟩ := List.mem_map.mp h
    rw [(Keyed.mem_group.mp hgroup).2]
    rfl
  obtain ⟨groups, hgroups, hkeys, hcounts⟩ :=
    Overlap.countByKey_ok (intervals rows horizon) fun pair h => by
      obtain ⟨points, hpoints, -⟩ := counted pair.1
      exact ⟨points, members pair h ▸ hpoints⟩
  refine ⟨groups, hgroups, ?_, fun group h => ?_⟩
  · rw [hkeys, intervals, List.map_map, ← Keyed.fst_group]
    rfl
  · obtain ⟨pair, hpair, hkey, hcount⟩ := hcounts group h
    obtain ⟨points, hpoints, holds⟩ := counted group.1
    rw [members pair hpair, hkey, hpoints] at hcount
    cases hcount
    exact holds

/-- No point of a storage element is later than the latest timestamp of all rows. -/
theorem point_le_horizonOf {element : String} {points : List OverlapPoint}
    (holds : Points (horizonOf rows) (rowsOf rows element) points) :
    ∀ point ∈ points, point.time ≤ horizonOf rows := by
  intro point h
  obtain ⟨row, hrow, htime⟩ := (holds.times _).mp (List.mem_map_of_mem h)
  have hrow : row ∈ rows := (List.mem_filter.mp hrow).1
  have last : Latest rows (horizonOf rows) := horizonOf_latest (List.ne_nil_of_mem hrow)
  rcases htime with htime | htime
  · exact htime ▸ last.created row hrow
  · rw [htime, closes]
    refine Int.max_le.mpr ⟨last.created row hrow, ?_⟩
    cases hremoved : row.removedAt with
    | none => exact Int.le_refl _
    | some removal => exact last.removed row hrow removal hremoved

/-- A replica that was never removed is there from its creation up to the limit. -/
theorem present_open {limit time : Int} {row : ReplicaLifetime} (never : row.removedAt = none)
    (after : row.createdAt ≤ time) (before : time ≤ limit) : present limit time row = true := by
  have : time ≤ closes limit row := by
    rw [closes, never]
    exact Int.le_trans before (Int.le_max_right _ _)
  simp [present, after, this]

/-- **Replicas are counted whatever their timestamps are.** There is one group for each storage
element that occurs, with the counts of its rows at each time one of them starts or ends. A replica
that was never removed ends at the given horizon, or at the latest timestamp of all rows. In the
latter case it is counted at every point of its storage element from its creation on. -/
theorem concurrent_counts_rows (rows : List ReplicaLifetime) (horizon : Option Int)
    (few : rows.length < 2 ^ 63) :
    ∃ groups, concurrent rows horizon = .ok groups ∧
      (groups.map Prod.fst).Pairwise (· < ·) ∧
      (∀ element, element ∈ groups.map Prod.fst ↔ ∃ row ∈ rows, row.storageElement = element) ∧
      (∀ group ∈ groups, Points (horizon.getD (horizonOf rows)) (rowsOf rows group.1) group.2) ∧
      (rows ≠ [] → Latest rows (horizonOf rows)) ∧
      (horizon = none → ∀ group ∈ groups, ∀ row ∈ rowsOf rows group.1, row.removedAt = none →
        ∀ point ∈ group.2, row.createdAt ≤ point.time →
          present (horizonOf rows) point.time row = true) := by
  have small : (rows.length : Int) ≤ Tick.greatest := by
    rw [Tick.greatest]
    omega
  obtain ⟨groups, hgroups, hkeys, hpoints⟩ := concurrent_ok horizon small
  refine ⟨groups, hgroups, ?_, ?_, hpoints, horizonOf_latest, ?_⟩
  · rw [hkeys]
    exact Keyed.keys_ascending _
  · intro element
    rw [hkeys, Keyed.mem_keys, List.mem_map]
  · rintro rfl group hgroup row - never point hpoint after
    exact present_open never after (point_le_horizonOf (hpoints group hgroup) point hpoint)

/-- A replica that is never removed, one that is removed before its creation, and one of another
storage element that has the latest timestamp. -/
def malformedRows : List ReplicaLifetime :=
  [⟨"a", 5, none⟩, ⟨"a", 8, some 3⟩, ⟨"b", -2, some 20⟩]

/-- The replica that is never removed stays until the removal at the other storage element. -/
theorem concurrent_counts_rows_malformed :
    malformedRows.length < 2 ^ 63 ∧ horizonOf malformedRows = 20 ∧
      ∃ groups, concurrent malformedRows none = .ok groups ∧
        (∀ element, element ∈ groups.map Prod.fst ↔
          ∃ row ∈ malformedRows, row.storageElement = element) ∧
        ∀ group ∈ groups, Points 20 (rowsOf malformedRows group.1) group.2 := by
  have few : malformedRows.length < 2 ^ 63 := by decide
  have horizon : horizonOf malformedRows = 20 := by decide
  obtain ⟨groups, hgroups, -, hkeys, hpoints, -⟩ :=
    concurrent_counts_rows malformedRows none few
  exact ⟨few, horizon, groups, hgroups, hkeys, hpoints⟩

end Concurrent

end GridReport.Replicas
