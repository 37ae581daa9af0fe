import GridReport.Chart.Plot
import GridReport.Proofs.Sweep

/-!
What a staircase through the counts shows between its corners.

The sweep counts at the starts and ends of intervals, and an interval still counts at its end. A
staircase holds each count until the next point. So between two points it shows what was live at the
first of them, and an interval that ended there lingers until the second.

* `latest?_eq_some`, `steps_level` — the point whose count a staircase holds, and the line it draws.
* `countP_live_eq` — the intervals that were live at a point, seen from a time before the next one.
* `staircase_lingers` — the staircase is right exactly where no interval lingers.
* `staircase_over_a_gap` — two intervals with a gap between them, which the staircase does not show.
-/

namespace GridReport

namespace Overlap

/-! ### The latest point -/

/-- The latest point that is not after the time. -/
def latest? (points : List OverlapPoint) (time : Int) : Option OverlapPoint :=
  (points.filter (·.time ≤ time)).getLast?

section Latest

variable {points : List OverlapPoint} {time : Int}

/-- Past the first boundary the latest is looked for in the rest. -/
theorem latest?_cons {first : OverlapPoint} (rest : List OverlapPoint) (le : first.time ≤ time) :
    latest? (first :: rest) time = some ((latest? rest time).getD first) := by
  have kept : (first :: rest).filter (·.time ≤ time) = first :: rest.filter (·.time ≤ time) :=
    List.filter_cons_of_pos (decide_eq_true le)
  rw [latest?, kept, List.getLast?_cons]
  rfl

/-- From the first point on there is a latest one, and any points after it are after the time. -/
theorem latest?_eq_some (ascending : (points.map OverlapPoint.time).Pairwise (· < ·))
    (begun : ∃ point ∈ points, point.time ≤ time) :
    ∃ before shown after, points = before ++ shown :: after ∧ latest? points time = some shown ∧
      shown.time ≤ time ∧ ∀ point ∈ after, time < point.time := by
  induction points with
  | nil => simp at begun
  | cons first rest ih =>
      obtain ⟨above, ascending⟩ := List.pairwise_cons.mp ascending
      have first_le : first.time ≤ time := by
        obtain ⟨point, here, le⟩ := begun
        rcases List.mem_cons.mp here with rfl | later
        · exact le
        · exact Int.le_trans (Int.le_of_lt (above _ (List.mem_map_of_mem later))) le
      by_cases more : ∃ point ∈ rest, point.time ≤ time
      · obtain ⟨before, shown, after, rfl, latest, le, late⟩ := ih ascending more
        refine ⟨first :: before, shown, after, rfl, ?_, le, late⟩
        rw [latest?_cons _ first_le, latest]
        rfl
      · have late : ∀ point ∈ rest, time < point.time := by simpa using more
        refine ⟨[], first, rest, rfl, ?_, first_le, late⟩
        have none_left : rest.filter (·.time ≤ time) = [] :=
          List.filter_eq_nil_iff.mpr fun point here => by simpa using late point here
        rw [latest?_cons _ first_le, latest?, none_left]
        rfl

/-- A point above the latest one comes after it. -/
theorem mem_after_of_lt {before after : List OverlapPoint} {shown point : OverlapPoint}
    (ascending : ((before ++ shown :: after).map OverlapPoint.time).Pairwise (· < ·))
    (here : point ∈ before ++ shown :: after) (lt : shown.time < point.time) : point ∈ after := by
  rw [List.map_append, List.pairwise_append] at ascending
  obtain ⟨-, -, earlier⟩ := ascending
  rcases List.mem_append.mp here with early | rest
  · have above := earlier _ (List.mem_map_of_mem early) shown.time (by simp)
    omega
  · rcases List.mem_cons.mp rest with rfl | later
    · omega
    · exact later

end Latest

end Overlap

/-! ### The line -/

namespace Curve

/-- Between two points next to each other the curve stays at the first one's value. -/
theorem stepsAfter_level (value : Float) (before after : Curve) (start finish : Int)
    (held next : Float) :
    [(Float.ofInt start, held), (Float.ofInt finish, held)] <:+:
      stepsAfter value (before ++ (start, held) :: (finish, next) :: after) := by
  induction before generalizing value with
  | nil => exact ⟨[(Float.ofInt start, value)], _, rfl⟩
  | cons point before ih =>
      obtain ⟨left, right, level⟩ := ih point.2
      exact ⟨(Float.ofInt point.1, value) :: (Float.ofInt point.1, point.2) :: left, right,
        congrArg (_ :: _ :: ·) level⟩

/-- The staircase keeps the value of a point up to the time of the next one. -/
theorem steps_level (before after : Curve) (start finish : Int) (held next : Float) :
    [(Float.ofInt start, held), (Float.ofInt finish, held)] <:+:
      steps (before ++ (start, held) :: (finish, next) :: after) := by
  cases before with
  | nil => exact ⟨[], _, rfl⟩
  | cons point before =>
      obtain ⟨left, right, level⟩ := stepsAfter_level point.2 before after start finish held next
      exact ⟨(Float.ofInt point.1, point.2) :: left, right, congrArg (_ :: ·) level⟩

end Curve

/-! ### Between two points -/

/-- The interval ended at an earlier time. -/
def Interval.lingers (interval : Interval) (shown time : Int) : Bool :=
  interval.finish = shown && shown < time

namespace Overlap

section Between

variable {intervals : List Interval} {points : List OverlapPoint} {shown time : Int}

/-- An interval without an end after `shown` and up to `time` is live at `shown` if it is live at
`time` or lingers there, and never both. -/
theorem live_eq {interval : Interval} (forward : interval.start ≤ interval.finish)
    (le : shown ≤ time) (not_started : ¬ (shown < interval.start ∧ interval.start ≤ time))
    (not_finished : ¬ (shown < interval.finish ∧ interval.finish ≤ time)) :
    (if interval.live shown then 1 else 0) =
      (if interval.live time then 1 else 0) + if interval.lingers shown time then 1 else 0 := by
  simp only [Interval.live, Interval.lingers, Bool.and_eq_true, decide_eq_true_eq]
  split <;> split <;> split <;> omega

/-- What was live at `shown` is live at `time` or lingers, if no interval starts or ends between. -/
theorem countP_live_eq (forward : ∀ interval ∈ intervals, interval.start ≤ interval.finish)
    (le : shown ≤ time)
    (apart : ∀ other ∈ coordinates intervals, ¬ (shown < other ∧ other ≤ time)) :
    intervals.countP (·.live shown) =
      intervals.countP (·.live time) + intervals.countP (·.lingers shown time) := by
  have each : ∀ interval ∈ intervals, (if interval.live shown then 1 else 0) =
      (if interval.live time then 1 else 0) + if interval.lingers shown time then 1 else 0 :=
    fun interval here => live_eq (forward interval here) le
      (apart _ (mem_coordinates.mpr ⟨interval, here, .inl rfl⟩))
      (apart _ (mem_coordinates.mpr ⟨interval, here, .inr rfl⟩))
  clear apart forward
  induction intervals with
  | nil => rfl
  | cons interval rest ih =>
      have here := each interval List.mem_cons_self
      have later := ih fun i hi => each i (List.mem_cons_of_mem _ hi)
      rw [List.countP_cons, List.countP_cons, List.countP_cons, here, later]
      omega

/-- No interval lingers at the point itself, and none where no interval ended at the point. -/
theorem countP_lingers_eq_zero (le : shown ≤ time) :
    intervals.countP (·.lingers shown time) = 0 ↔
      shown = time ∨ ∀ interval ∈ intervals, interval.finish ≠ shown := by
  rw [List.countP_eq_zero]
  simp only [Interval.lingers, Bool.and_eq_true, decide_eq_true_eq]
  constructor
  · intro none_lingers
    rcases Int.lt_or_eq_of_le le with lt | same
    · exact .inr fun interval here ended => none_lingers interval here ⟨ended, lt⟩
    · exact .inl same
  · rintro (rfl | none_ended) interval here ⟨ended, lt⟩
    · omega
    · exact none_ended interval here ended

/-- Intervals that each count once are counted by their number. -/
theorem liveSum_of_unit (unit : ∀ interval ∈ intervals, interval.delta = 1) (time : Int) :
    liveSum intervals time = intervals.countP (·.live time) := by
  induction intervals with
  | nil => rfl
  | cons interval rest ih =>
      rw [liveSum_cons, ih fun i hi => unit i (List.mem_cons_of_mem _ hi),
        unit interval List.mem_cons_self, List.countP_cons]
      split <;> simp [Int.add_comm]

/-- Intervals that each count for one add up to their number. -/
theorem totalSize_of_unit (unit : ∀ interval ∈ intervals, interval.delta = 1) :
    totalSize intervals = intervals.length := by
  induction intervals with
  | nil => rfl
  | cons interval rest ih =>
      rw [totalSize_cons, ih fun i hi => unit i (List.mem_cons_of_mem _ hi),
        unit interval List.mem_cons_self, List.length_cons]
      omega

/-- **A staircase is right where no interval lingers.** Intervals that each count once and do not
end before they start are counted, if a count can hold their number. At any time from the first to
the last point the staircase shows the count of the latest point, by a level line up to the next
one. That is the number of intervals live at the time, and with them the ones that ended at this
point before the time. So it is the number of live intervals exactly at the points themselves, and
after points at which no interval ends. -/
theorem staircase_lingers (intervals : List Interval)
    (forward : ∀ interval ∈ intervals, interval.start ≤ interval.finish)
    (unit : ∀ interval ∈ intervals, interval.delta = 1) :
    ((intervals.length : Int) ≤ Tick.greatest → ∃ points, count intervals = .ok points) ∧
    ∀ points, count intervals = .ok points → ∀ time, (∃ point ∈ points, point.time ≤ time) →
      (∃ point ∈ points, time ≤ point.time) →
      ∃ shown, latest? points time = some shown ∧
        shown.count = intervals.countP (·.live time) +
          intervals.countP (·.lingers shown.time time) ∧
        (shown.count = intervals.countP (·.live time) ↔
          shown.time = time ∨ ∀ interval ∈ intervals, interval.finish ≠ shown.time) ∧
        (shown.time = time ∨ ∃ next ∈ points, time < next.time ∧
          [(Float.ofInt shown.time, Float.ofInt shown.count),
            (Float.ofInt next.time, Float.ofInt shown.count)] <:+:
              Chart.corners true (Curve.ofOverlaps points)) := by
  refine ⟨fun few => ?_, fun points counted time begun reached => ?_⟩
  · obtain ⟨points, counted, -⟩ := count_ok forward (by rwa [totalSize_of_unit unit])
    exact ⟨points, counted⟩
  obtain ⟨times, counts⟩ := count_eq_ok counted
  have ascending : (points.map OverlapPoint.time).Pairwise (· < ·) := by
    rw [times]
    exact coordinates_ascending intervals
  obtain ⟨before, shown, after, split, latest, le, late⟩ := latest?_eq_some ascending begun
  have here : shown ∈ points := by simp [split]
  have apart : ∀ other ∈ coordinates intervals, ¬ (shown.time < other ∧ other ≤ time) := by
    rw [← times]
    rintro other listed ⟨lt, le⟩
    obtain ⟨point, here, rfl⟩ := List.mem_map.mp listed
    have above := late point (mem_after_of_lt (split ▸ ascending) (split ▸ here) lt)
    omega
  have summed : shown.count = intervals.countP (·.live time) +
      intervals.countP (·.lingers shown.time time) := by
    rw [counts shown here, liveSum_of_unit unit, countP_live_eq forward le apart, Int.natCast_add]
  refine ⟨shown, latest, summed, ?_, ?_⟩
  · rw [← countP_lingers_eq_zero le, summed]
    omega
  · rcases Int.lt_or_eq_of_le le with lt | same
    · right
      obtain ⟨last, listed, within⟩ := reached
      have later : last ∈ after := mem_after_of_lt (split ▸ ascending) (split ▸ listed) (by omega)
      cases after with
      | nil => simp at later
      | cons next after =>
          refine ⟨next, by simp [split], late next List.mem_cons_self, ?_⟩
          have level := Curve.steps_level (Curve.ofOverlaps before) (Curve.ofOverlaps after)
            shown.time next.time (Float.ofInt shown.count) (Float.ofInt next.count)
          rw [split]
          simpa [Chart.corners, Curve.ofOverlaps] using level
    · exact .inl same

/-- A long interval with a short one inside it, seen after the short one has ended. -/
theorem staircase_lingers_nested :
    ∃ points, count [⟨0, 9, 1⟩, ⟨2, 4, 1⟩] = .ok points ∧
      ∃ shown, latest? points 6 = some shown ∧
        shown.count = [(⟨0, 9, 1⟩ : Interval), ⟨2, 4, 1⟩].countP (·.live 6) +
          [(⟨0, 9, 1⟩ : Interval), ⟨2, 4, 1⟩].countP (·.lingers shown.time 6) := by
  have ends : coordinates [⟨0, 9, 1⟩, ⟨2, 4, 1⟩] = [0, 2, 4, 9] := by
    simp +decide [coordinates, List.mergeSort, List.MergeSort.Internal.splitInTwo]
  have returned : count [⟨0, 9, 1⟩, ⟨2, 4, 1⟩] =
      .ok [⟨0, 1⟩, ⟨2, 2⟩, ⟨4, 2⟩, ⟨9, 1⟩] := by
    refine orBreak_eq_ok.mpr ?_
    rw [ends]
    decide +kernel
  obtain ⟨shown, latest, summed, -⟩ := (staircase_lingers [⟨0, 9, 1⟩, ⟨2, 4, 1⟩] (by decide)
    (by decide)).2 _ returned 6 (by decide) (by decide)
  exact ⟨_, returned, shown, latest, summed⟩

/-- Between two intervals that do not touch, nothing is live, and the staircase still shows one. -/
theorem staircase_over_a_gap :
    ∃ points, count [⟨0, 4, 1⟩, ⟨6, 9, 1⟩] = .ok points ∧
      latest? points 5 = some ⟨4, 1⟩ ∧
      [(⟨0, 4, 1⟩ : Interval), ⟨6, 9, 1⟩].countP (·.live 5) = 0 ∧
      [(Float.ofInt 4, Float.ofInt 1), (Float.ofInt 6, Float.ofInt 1)] <:+:
        Chart.corners true (Curve.ofOverlaps points) := by
  have ends : coordinates [⟨0, 4, 1⟩, ⟨6, 9, 1⟩] = [0, 4, 6, 9] := by
    simp +decide [coordinates, List.mergeSort, List.MergeSort.Internal.splitInTwo]
  have returned : count [⟨0, 4, 1⟩, ⟨6, 9, 1⟩] =
      .ok [⟨0, 1⟩, ⟨4, 1⟩, ⟨6, 1⟩, ⟨9, 1⟩] := by
    refine orBreak_eq_ok.mpr ?_
    rw [ends]
    decide +kernel
  exact ⟨_, returned, by decide, by decide, Curve.steps_level [(0, _)] [(9, _)] 4 6 _ _⟩

end Between

end Overlap

end GridReport
