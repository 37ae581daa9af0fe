import GridReport.Proofs.Alignment
import GridReport.Transfers
import Mathlib.Data.Int.Order.Basic
import Mathlib.Logic.Function.Iterate

/-!
Queued and started transfers, counted bin by bin.

The stage sorts two lists of events, bins each of them up to its own last event and puts both on one
axis. Read off the rows it is simpler: one grid up to the latest timestamp of all, and in each bin
the number of rows queued and started in it. The order of the rows is forgotten when they are
sorted, since events of one timestamp are all alike.

* `ofEvents_sorted`, `ofEvents_unfit` — a sorted list of events has a series exactly if every
  timestamp can be held by a bin; it is never refused for its order.
* `sumFrom_slice` — the weight of a bin over sorted single events is a tally.
* `aligned_ok`, `aligned_unfit` — the stage as a whole.
-/

namespace GridReport.Transfers

open Series AlignedSeries

/-! ### Sorted events -/

/-- A timestamp that a bin can hold: neither negative nor the greatest one. -/
def Fits (timestamp : Int) : Prop := 0 ≤ timestamp ∧ timestamp ≤ Tick.greatest - 1

theorem sortEvents_sorted (events : List Event) :
    (sortEvents events).Pairwise fun a b => a.timestamp ≤ b.timestamp :=
  Ascending.mergeSort_sorted Event.timestamp (fun _ _ => decide_eq_true_iff) events

theorem mem_sortEvents {event : Event} {events : List Event} :
    event ∈ sortEvents events ↔ event ∈ events := List.mem_mergeSort

section Sorted

variable {events : List Event} {final : Event} {interval : Int}

/-- Events in order whose bounds fit are counted on the grid. -/
theorem ofEvents_sorted (positive : 0 < interval)
    (sorted : events.Pairwise fun a b => a.timestamp ≤ b.timestamp)
    (last : events.getLast? = some final) (fit : ∀ event ∈ events, Fits event.timestamp) :
    ofEvents events interval = .ok ⟨interval, grid interval final.timestamp events⟩ := by
  have natural : ∀ event ∈ events, 0 ≤ event.timestamp := fun event h => (fit event h).1
  obtain ⟨hnatural, hbelow⟩ := fit final (List.mem_of_getLast? last)
  have room : Tick.InRange (final.timestamp + 1) :=
    (room_iff hnatural).mpr (Int.lt_of_le_sub_one hbelow)
  exact ofEvents_inOrder positive last room ⟨sorted, natural, natural⟩

/-- A sorted list that holds a timestamp out of bounds is refused, and not for its order: either
its last timestamp leaves no room or its first one is negative. -/
theorem ofEvents_unfit (positive : 0 < interval)
    (sorted : events.Pairwise fun a b => a.timestamp ≤ b.timestamp)
    (last : events.getLast? = some final) (unfit : ¬ ∀ event ∈ events, Fits event.timestamp) :
    ∃ cause, ofEvents events interval = .error (.invalidInput cause) ∧
      ∀ timestamp previous, cause ≠ .unsorted timestamp previous := by
  rw [ofEvents_grid positive last]
  by_cases room : Tick.InRange (final.timestamp + 1)
  · rw [if_pos room]
    cases events with
    | nil => simp at last
    | cons first rest =>
        have negative : first.timestamp < 0 := by
          by_contra h
          have natural : ∀ event ∈ first :: rest, 0 ≤ event.timestamp := by
            intro event hevent
            rcases List.mem_cons.mp hevent with rfl | hrest
            · exact Int.not_lt.mp h
            · exact Int.le_trans (Int.not_lt.mp h) ((List.pairwise_cons.mp sorted).1 event hrest)
          have below := (room_iff (natural final (List.mem_of_getLast? last))).mp room
          refine unfit fun event hevent => ⟨natural event hevent, ?_⟩
          exact Int.le_sub_one_of_lt (Int.lt_of_le_of_lt (le_final sorted last event hevent) below)
        refine ⟨.negativeTimestamp first.timestamp, ?_, fun _ _ h => by cases h⟩
        simp [follow, checkOrder, negative, Except.map]
  · rw [if_neg room]
    exact ⟨.noFinalBin final.timestamp, rfl, fun _ _ h => by cases h⟩

end Sorted

/-! ### Tallies -/

/-- One, added to zero so many times. -/
def tally (n : Nat) : Float := (fun sum => sum + 1.0)^[n] 0.0

/-- Weights of one are added one by one. -/
theorem sumFrom_single (weight : Float) {events : List Event}
    (single : ∀ event ∈ events, event.weight = 1.0) :
    sumFrom weight events = (fun sum => sum + 1.0)^[events.length] weight := by
  induction events generalizing weight with
  | nil => rfl
  | cons event rest ih =>
      have here := single event List.mem_cons_self
      rw [List.length_cons, Function.iterate_succ_apply,
        ← ih (weight + 1.0) fun e he => single e (List.mem_cons_of_mem _ he), ← here]
      rfl

/-- Over sorted single events a bin weighs the tally of the timestamps in it. -/
theorem sumFrom_slice (bin : Bin) (times : List Int) :
    sumFrom 0.0 (bin.slice (sortEvents (times.map Event.count))) =
      tally (times.countP bin.contains) := by
  have single : ∀ event ∈ bin.slice (sortEvents (times.map Event.count)), event.weight = 1.0 := by
    intro event hevent
    obtain ⟨time, -, rfl⟩ := List.mem_map.mp (mem_sortEvents.mp (mem_slice.mp hevent).1)
    rfl
  have length : (bin.slice (sortEvents (times.map Event.count))).length =
      times.countP bin.contains := by
    rw [Bin.slice, ← List.countP_eq_length_filter, sortEvents,
      (List.mergeSort_perm _ _).countP_eq, List.countP_map]
    rfl
  rw [sumFrom_single 0.0 single, length, tally]

/-! ### The stage -/

/-- At this time a transfer of the rows was queued or started. -/
def Occurs (rows : List TransferTimes) (time : Int) : Prop :=
  ∃ row ∈ rows, row.queuedAt = time ∨ row.startedAt = some time

section Stage

variable {rows : List TransferTimes} {interval : Int}

theorem mem_queuedEvents {event : Event} :
    event ∈ queuedEvents rows ↔ ∃ row ∈ rows, Event.count row.queuedAt = event := by
  rw [queuedEvents, mem_sortEvents, List.mem_map]

theorem mem_startedEvents {event : Event} :
    event ∈ startedEvents rows ↔
      ∃ row ∈ rows, ∃ time, row.startedAt = some time ∧ Event.count time = event := by
  rw [startedEvents, mem_sortEvents, List.mem_map]
  constructor
  · rintro ⟨time, htime, rfl⟩
    obtain ⟨row, hrow, hstarted⟩ := List.mem_filterMap.mp htime
    exact ⟨row, hrow, time, hstarted, rfl⟩
  · rintro ⟨row, hrow, time, hstarted, rfl⟩
    exact ⟨time, List.mem_filterMap.mpr ⟨row, hrow, hstarted⟩, rfl⟩

theorem queuedEvents_sorted (rows : List TransferTimes) :
    (queuedEvents rows).Pairwise fun a b => a.timestamp ≤ b.timestamp := sortEvents_sorted _

theorem startedEvents_sorted (rows : List TransferTimes) :
    (startedEvents rows).Pairwise fun a b => a.timestamp ≤ b.timestamp := sortEvents_sorted _

theorem occurs_of_queued {event : Event} (h : event ∈ queuedEvents rows) :
    Occurs rows event.timestamp := by
  obtain ⟨row, hrow, rfl⟩ := mem_queuedEvents.mp h
  exact ⟨row, hrow, .inl rfl⟩

theorem occurs_of_started {event : Event} (h : event ∈ startedEvents rows) :
    Occurs rows event.timestamp := by
  obtain ⟨row, hrow, time, hstarted, rfl⟩ := mem_startedEvents.mp h
  exact ⟨row, hrow, .inr hstarted⟩

/-- What holds of all queued and of all started events holds at every time of the rows. -/
theorem forall_occurs {holds : Int → Prop}
    (queued : ∀ event ∈ queuedEvents rows, holds event.timestamp)
    (started : ∀ event ∈ startedEvents rows, holds event.timestamp) :
    ∀ time, Occurs rows time → holds time := by
  rintro time ⟨row, hrow, rfl | hstarted⟩
  · exact queued _ (mem_queuedEvents.mpr ⟨row, hrow, rfl⟩)
  · exact started _ (mem_startedEvents.mpr ⟨row, hrow, time, hstarted, rfl⟩)

/-- Any row at all gives a last event. -/
theorem queued_last (nonempty : rows ≠ []) :
    ∃ final, (queuedEvents rows).getLast? = some final := by
  obtain ⟨row, hrow⟩ := List.exists_mem_of_ne_nil rows nonempty
  have some_queued : queuedEvents rows ≠ [] :=
    List.ne_nil_of_mem (mem_queuedEvents.mpr ⟨row, hrow, rfl⟩)
  exact ⟨_, List.getLast?_eq_some_getLast some_queued⟩

theorem aligned_eq (rows : List TransferTimes) (interval : Int) :
    aligned rows interval =
      (ofEvents (queuedEvents rows) interval).bind fun queued =>
        if (startedEvents rows).isEmpty then ofSeries queued (Series.empty interval)
        else (ofEvents (startedEvents rows) interval).bind fun started =>
          ofSeries queued started := rfl

/-- Rows whose times fit lie on the grid up to the latest of them. -/
theorem aligned_ok (positive : 0 < interval) (nonempty : rows ≠ [])
    (fit : ∀ time, Occurs rows time → Fits time) :
    ∃ latest, (Occurs rows latest ∧ ∀ time, Occurs rows time → time ≤ latest) ∧
      aligned rows interval =
        .ok (shared interval latest (queuedEvents rows) (startedEvents rows)) := by
  obtain ⟨finalQ, lastQ⟩ := queued_last nonempty
  have memberQ := List.mem_of_getLast? lastQ
  have insideQ := le_final (queuedEvents_sorted rows) lastQ
  have queued := ofEvents_sorted positive (queuedEvents_sorted rows) lastQ
    fun event h => fit _ (occurs_of_queued h)
  rw [aligned_eq, queued]
  cases lastS : (startedEvents rows).getLast? with
  | none =>
      have no_start : startedEvents rows = [] := List.getLast?_eq_none_iff.mp lastS
      refine ⟨finalQ.timestamp, ⟨occurs_of_queued memberQ, forall_occurs insideQ ?_⟩, ?_⟩
      · simp [no_start]
      · rw [no_start]
        exact ofSeries_grid_empty interval finalQ.timestamp _
  | some finalS =>
      have memberS := List.mem_of_getLast? lastS
      have insideS := le_final (startedEvents_sorted rows) lastS
      have some_start : (startedEvents rows).isEmpty = false :=
        List.isEmpty_eq_false_iff.mpr (List.ne_nil_of_mem memberS)
      have started := ofEvents_sorted positive (startedEvents_sorted rows) lastS
        fun event h => fit _ (occurs_of_started h)
      rw [started, some_start]
      refine ⟨max finalQ.timestamp finalS.timestamp, ⟨?_, forall_occurs ?_ ?_⟩, ?_⟩
      · rcases Int.le_total finalQ.timestamp finalS.timestamp with h | h
        · rw [Int.max_eq_right h]
          exact occurs_of_started memberS
        · rw [Int.max_eq_left h]
          exact occurs_of_queued memberQ
      · intro event hevent
        exact Int.le_trans (insideQ event hevent) (Int.le_max_left _ _)
      · intro event hevent
        exact Int.le_trans (insideS event hevent) (Int.le_max_right _ _)
      · exact ofSeries_grid positive (fit _ (occurs_of_queued memberQ)).1
          (fit _ (occurs_of_started memberS)).1 insideQ insideS

/-- Rows of which some time does not fit are refused, and not for their order. -/
theorem aligned_unfit (positive : 0 < interval) (nonempty : rows ≠ [])
    (unfit : ¬ ∀ time, Occurs rows time → Fits time) :
    ∃ cause, aligned rows interval = .error (.invalidInput cause) ∧
      ∀ timestamp previous, cause ≠ .unsorted timestamp previous := by
  obtain ⟨finalQ, lastQ⟩ := queued_last nonempty
  have sortedQ := queuedEvents_sorted rows
  rw [aligned_eq]
  by_cases fitQ : ∀ event ∈ queuedEvents rows, Fits event.timestamp
  · have unfitS : ¬ ∀ event ∈ startedEvents rows, Fits event.timestamp := fun fitS =>
      unfit (forall_occurs fitQ fitS)
    have some_start : startedEvents rows ≠ [] := fun h => unfitS (by simp [h])
    obtain ⟨cause, refused, ordered⟩ := ofEvents_unfit positive (startedEvents_sorted rows)
      (List.getLast?_eq_some_getLast some_start) unfitS
    refine ⟨cause, ?_, ordered⟩
    rw [ofEvents_sorted positive sortedQ lastQ fitQ, refused,
      List.isEmpty_eq_false_iff.mpr some_start]
    rfl
  · obtain ⟨cause, refused, ordered⟩ := ofEvents_unfit positive sortedQ lastQ fitQ
    refine ⟨cause, ?_, ordered⟩
    rw [refused]
    rfl

/-- Without rows there are no events. -/
theorem aligned_nil (positive : 0 < interval) :
    aligned [] interval = .error (.noData .noEvents) := by
  simp [aligned_eq, queuedEvents, sortEvents, ofEvents, positive, Except.bind]

/-- Any rows whose times all fit are counted. -/
theorem aligned_ok_iff (positive : 0 < interval) :
    (∃ series, aligned rows interval = .ok series) ↔
      rows ≠ [] ∧ ∀ time, Occurs rows time → Fits time := by
  constructor
  · rintro ⟨series, accepted⟩
    have nonempty : rows ≠ [] := by
      rintro rfl
      rw [aligned_nil positive] at accepted
      cases accepted
    refine ⟨nonempty, ?_⟩
    by_contra unfit
    obtain ⟨cause, refused, -⟩ := aligned_unfit positive nonempty unfit
    rw [refused] at accepted
    cases accepted
  · rintro ⟨nonempty, fit⟩
    obtain ⟨latest, -, accepted⟩ := aligned_ok positive nonempty fit
    exact ⟨_, accepted⟩

/-! ### The rows behind the bins -/

/-- Single events of one timestamp are alike, so sorting them forgets their order. -/
theorem sortEvents_eq_of_perm {times times' : List Int} (perm : times.Perm times') :
    sortEvents (times.map Event.count) = sortEvents (times'.map Event.count) := by
  refine Ascending.mergeSort_eq_of_perm Event.timestamp (fun _ _ => decide_eq_true_iff)
    (perm.map _) ?_
  intro a ha b hb same
  obtain ⟨s, -, rfl⟩ := List.mem_map.mp ha
  obtain ⟨t, -, rfl⟩ := List.mem_map.mp hb
  exact congrArg Event.count same

/-- The order of the rows does not matter. -/
theorem aligned_perm {rows' : List TransferTimes} (perm : rows.Perm rows') (interval : Int) :
    aligned rows interval = aligned rows' interval := by
  have queued : queuedEvents rows = queuedEvents rows' := by
    have := sortEvents_eq_of_perm (perm.map TransferTimes.queuedAt)
    rwa [List.map_map, List.map_map] at this
  have started : startedEvents rows = startedEvents rows' :=
    sortEvents_eq_of_perm (perm.filterMap TransferTimes.startedAt)
  rw [aligned_eq, aligned_eq, queued, started]

/-- A bin weighs as many queued events as there are rows queued in it. -/
theorem weight_queued (bin : Bin) :
    sumFrom 0.0 (bin.slice (queuedEvents rows)) =
      tally (rows.countP fun row => bin.contains row.queuedAt) := by
  have := sumFrom_slice bin (rows.map TransferTimes.queuedAt)
  rwa [List.map_map, List.countP_map] at this

/-- And as many started ones as there are rows started in it. -/
theorem weight_started (bin : Bin) :
    sumFrom 0.0 (bin.slice (startedEvents rows)) =
      tally (rows.countP fun row => row.startedAt.any bin.contains) := by
  have each : (fun row : TransferTimes => (row.startedAt.map bin.contains).getD false) =
      fun row => row.startedAt.any bin.contains := by
    funext row
    cases row.startedAt <;> rfl
  have := sumFrom_slice bin (rows.filterMap TransferTimes.startedAt)
  rwa [List.countP_filterMap, each] at this

/-- The series holds the rows, counted bin by bin up to `latest`. -/
structure RowCounts (rows : List TransferTimes) (interval latest : Int) (series : AlignedSeries) :
    Prop where
  width : series.interval = interval
  size : (series.axis.length : Int) = latest / interval + 1
  first_size : series.first.length = series.axis.length
  second_size : series.second.length = series.axis.length
  start : ∀ (i : Nat) bin, series.axis[i]? = some bin → bin.start = i * interval
  finish : ∀ (i : Nat) bin, series.axis[i]? = some bin →
    bin.finish = if i + 1 < series.axis.length then (i + 1) * interval else latest + 1
  queued : ∀ (i : Nat) bin, series.axis[i]? = some bin →
    series.first[i]? = some (tally (rows.countP fun row => bin.contains row.queuedAt))
  started : ∀ (i : Nat) bin, series.axis[i]? = some bin →
    series.second[i]? = some (tally (rows.countP fun row => row.startedAt.any bin.contains))
  none_started : (∀ row ∈ rows, row.startedAt = none) → ∀ weight ∈ series.second, weight = 0.0

/-- On the shared grid every bin counts the rows of its times. -/
theorem rowCounts_shared (positive : 0 < interval) {latest : Int} (natural : 0 ≤ latest) :
    RowCounts rows interval latest
      (shared interval latest (queuedEvents rows) (startedEvents rows)) := by
  have size : (shared interval latest (queuedEvents rows) (startedEvents rows)).axis.length =
      gridSize interval latest := by simp [shared]
  have place : ∀ (i : Nat) bin,
      (shared interval latest (queuedEvents rows) (startedEvents rows)).axis[i]? = some bin →
        i < gridSize interval latest ∧ bin = span interval latest i := by
    intro i bin h
    obtain ⟨hi, rfl⟩ := List.getElem?_eq_some_iff.mp h
    exact ⟨size ▸ hi, by simp [shared]⟩
  exact {
    width := rfl
    size := by rw [size, gridSize_eq positive natural]
    first_size := by simp [shared]
    second_size := by simp [shared]
    start := by
      intro i bin h
      rw [(place i bin h).2]
      rfl
    finish := by
      intro i bin h
      rw [(place i bin h).2, size]
      exact span_finish positive natural i
    queued := by
      intro i bin h
      obtain ⟨hi, rfl⟩ := place i bin h
      simp [shared, hi, weight_queued]
    started := by
      intro i bin h
      obtain ⟨hi, rfl⟩ := place i bin h
      simp [shared, hi, weight_started]
    none_started := by
      intro absent weight hweight
      obtain ⟨i, -, rfl⟩ := List.mem_map.mp hweight
      have none_left : rows.countP (fun row =>
          row.startedAt.any (span interval latest i).contains) = 0 :=
        List.countP_eq_zero.mpr fun row hrow => by simp [absent row hrow]
      rw [weight_started, none_left]
      rfl }

/-- **The stage counts the rows bin by bin.** Rows in any order have an axis exactly if there are
any and all their queued and started times lie between zero and the last timestamp but one;
otherwise there is no data, or the input is refused for a time out of bounds and never for its order
or a setting. The axis stands at the multiples of the interval and ends right after the latest time.
Each of its bins has one added to zero for every row queued in it, and the same for the rows
started, so all of these are zero if none has started. The order of the rows does not matter. -/
theorem aligned_counts_rows (rows : List TransferTimes) (interval : Int)
    (positive : 0 < interval) :
    ((∃ series, aligned rows interval = .ok series) ↔
      rows ≠ [] ∧ ∀ row ∈ rows, Fits row.queuedAt ∧ ∀ time ∈ row.startedAt, Fits time) ∧
    (∀ error, aligned rows interval = .error error →
      (rows = [] → error = .noData .noEvents) ∧
      (rows ≠ [] → ∃ cause, error = .invalidInput cause ∧
        ∀ timestamp previous, cause ≠ .unsorted timestamp previous)) ∧
    (∀ series, aligned rows interval = .ok series →
      ∃ latest, (Occurs rows latest ∧ ∀ time, Occurs rows time → time ≤ latest) ∧
        RowCounts rows interval latest series) ∧
    ∀ rows' : List TransferTimes, rows'.Perm rows →
      aligned rows' interval = aligned rows interval := by
  have fit_iff : (∀ time, Occurs rows time → Fits time) ↔
      ∀ row ∈ rows, Fits row.queuedAt ∧ ∀ time ∈ row.startedAt, Fits time := by
    constructor
    · intro h row hrow
      exact ⟨h _ ⟨row, hrow, .inl rfl⟩, fun time htime => h time ⟨row, hrow, .inr htime⟩⟩
    · rintro h time ⟨row, hrow, rfl | hstarted⟩
      · exact (h row hrow).1
      · exact (h row hrow).2 time hstarted
  refine ⟨?_, ?_, ?_, fun rows' perm => aligned_perm perm interval⟩
  · rw [aligned_ok_iff positive, fit_iff]
  · intro error refused
    constructor
    · rintro rfl
      rw [aligned_nil positive] at refused
      cases refused
      rfl
    · intro nonempty
      have unfit : ¬ ∀ time, Occurs rows time → Fits time := fun fit => by
        obtain ⟨series, accepted⟩ := (aligned_ok_iff positive).mpr ⟨nonempty, fit⟩
        rw [refused] at accepted
        cases accepted
      obtain ⟨cause, because, ordered⟩ := aligned_unfit positive nonempty unfit
      rw [refused] at because
      cases because
      exact ⟨cause, rfl, ordered⟩
  · intro series accepted
    obtain ⟨nonempty, fit⟩ := (aligned_ok_iff positive).mp ⟨series, accepted⟩
    obtain ⟨latest, most, exactly⟩ := aligned_ok positive nonempty fit
    rw [accepted] at exactly
    cases exactly
    exact ⟨latest, most, rowCounts_shared positive (fit latest most.1).1⟩

/-- A start later than all queueing, a row that never started, and no order. -/
def unevenRows : List TransferTimes := [⟨12, some 31, none⟩, ⟨3, none, none⟩, ⟨10, some 9, some 40⟩]

theorem aligned_counts_rows_uneven :
    (0 : Int) < 10 ∧ ∃ series latest, aligned unevenRows 10 = .ok series ∧
      (Occurs unevenRows latest ∧ ∀ time, Occurs unevenRows time → time ≤ latest) ∧
      RowCounts unevenRows 10 latest series := by
  have positive : (0 : Int) < 10 := by decide
  obtain ⟨accepted, -, counted, -⟩ := aligned_counts_rows unevenRows 10 positive
  obtain ⟨series, hseries⟩ := accepted.mpr (by simp [unevenRows, Fits, Tick.greatest])
  obtain ⟨latest, most, counts⟩ := counted series hseries
  exact ⟨positive, series, latest, hseries, most, counts⟩

end Stage

end GridReport.Transfers
