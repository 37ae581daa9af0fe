import GridReport.Proofs.Ascending
import GridReport.Series
import Mathlib.Data.List.Pairwise

/-!
The bins of a list of events, in closed form.

The loop walks over the events with one cursor and a running boundary. What it makes is a grid: bin
`i` starts at `i * interval`, all bins but the last end where the next one starts, the last one ends
right after the last event, and each bin weighs what lies in it.

* `fill_eq` — one bin takes the events in front of the first one past its boundary.
* `follow_ok_iff` — the check of the order, taken over a whole list, accepts exactly the sorted
  lists without negative timestamps.
* `binsFrom_grid`, `binsFrom_error` — what the loop makes of the events still ahead.
* `ofEvents_grid`, `ofEvents_inOrder`, `of_ofEvents_ok` — the series as a grid, from which the
  statements about series are read off.
-/

namespace GridReport

/-- The events that the bin covers, in their order. -/
def Bin.slice (bin : Bin) (events : List Event) : List Event :=
  events.filter fun event => bin.contains event.timestamp

namespace Series

/-! ### One bin -/

/-- The weights of the events, added to `weight` from left to right. -/
def sumFrom (weight : Float) (events : List Event) : Float :=
  events.foldl (fun sum event => sum + event.weight) weight

/-- The event lies before the boundary; without a boundary every event does. -/
def before (boundary : Option Int) (event : Event) : Bool :=
  boundary.all fun limit => event.timestamp < limit

/-- The check of the order over a list: the timestamp that the next event has to follow, or the
refusal of the first event that may not follow the one in front of it. -/
def follow (previous : Int) : List Event → Except Error Int
  | [] => .ok previous
  | event :: ahead =>
    match checkOrder event previous with
    | .error error => .error error
    | .ok () => follow event.timestamp ahead

/-- Events are followed one after another. -/
theorem follow_append (previous : Int) (taken ahead : List Event) :
    follow previous (taken ++ ahead) =
      (follow previous taken).bind fun next => follow next ahead := by
  induction taken generalizing previous with
  | nil => rfl
  | cons event taken ih =>
      simp only [List.cons_append, follow]
      cases checkOrder event previous with
      | error error => rfl
      | ok _ => exact ih event.timestamp

/-- A bin takes the events in front of the first one that is not before its boundary. -/
theorem fill_eq (boundary : Option Int) (weight : Float) (previous : Int) (ahead : List Event) :
    fill boundary weight previous ahead =
      (follow previous (ahead.takeWhile (before boundary))).map fun next =>
        ⟨sumFrom weight (ahead.takeWhile (before boundary)), next,
          ahead.dropWhile (before boundary)⟩ := by
  induction ahead generalizing weight previous with
  | nil => rfl
  | cons event ahead ih =>
      rw [fill]
      split
      · rename_i inside
        have taken : before boundary event = true := inside
        rw [List.takeWhile_cons_of_pos taken, List.dropWhile_cons_of_pos taken, follow]
        cases checkOrder event previous with
        | error error => rfl
        | ok _ => exact ih (weight + event.weight) event.timestamp
      · rename_i outside
        have left : ¬ before boundary event = true := outside
        rw [List.takeWhile_cons_of_neg left, List.dropWhile_cons_of_neg left]
        rfl

/-- The final bin takes all events that are left. -/
theorem fill_none (weight : Float) (previous : Int) (ahead : List Event) :
    fill none weight previous ahead =
      (follow previous ahead).map fun next => ⟨sumFrom weight ahead, next, []⟩ := by
  have all : ∀ event ∈ ahead, before none event = true := fun _ _ => rfl
  have none_left : ahead.dropWhile (before none) = [] := List.dropWhile_eq_nil_iff.mpr all
  rw [fill_eq, List.takeWhile_eq_self_iff.mpr all, none_left]

section Cut

variable {boundary : Option Int} {weight : Float} {previous : Int} {ahead : List Event}

/-- The check of the order, cut where a bin ends. -/
theorem follow_cut (boundary : Option Int) (previous : Int) (ahead : List Event) :
    follow previous ahead =
      (follow previous (ahead.takeWhile (before boundary))).bind fun next =>
        follow next (ahead.dropWhile (before boundary)) := by
  rw [← follow_append, List.takeWhile_append_dropWhile]

/-- A bin that stops at an event stops where the check of the whole list stops. -/
theorem follow_of_fill_error {error : Error}
    (stopped : fill boundary weight previous ahead = .error error) :
    follow previous ahead = .error error := by
  rw [fill_eq] at stopped
  rw [follow_cut boundary]
  cases htaken : follow previous (ahead.takeWhile (before boundary)) with
  | error refused =>
      rw [htaken] at stopped
      cases stopped
      rfl
  | ok next =>
      rw [htaken] at stopped
      cases stopped

/-- A bin that is closed leaves the rest of the check to the events behind it. -/
theorem follow_of_fill_ok {filled : Filled}
    (closed : fill boundary weight previous ahead = .ok filled) :
    follow previous ahead = follow filled.previous filled.ahead ∧
      filled.weight = sumFrom weight (ahead.takeWhile (before boundary)) ∧
      filled.ahead = ahead.dropWhile (before boundary) := by
  rw [fill_eq] at closed
  rw [follow_cut boundary]
  cases htaken : follow previous (ahead.takeWhile (before boundary)) with
  | error refused =>
      rw [htaken] at closed
      cases closed
  | ok next =>
      rw [htaken] at closed
      cases closed
      exact ⟨rfl, rfl, rfl⟩

end Cut

/-! ### The order of the events -/

/-- The events may come one after the other behind `previous`. -/
structure InOrder (previous : Int) (events : List Event) : Prop where
  sorted : events.Pairwise fun a b => a.timestamp ≤ b.timestamp
  natural : ∀ event ∈ events, 0 ≤ event.timestamp
  behind : ∀ event ∈ events, previous ≤ event.timestamp

/-- An event is in order if it is not negative and not before the previous one. -/
theorem checkOrder_ok_iff {event : Event} {previous : Int} :
    checkOrder event previous = .ok () ↔ 0 ≤ event.timestamp ∧ previous ≤ event.timestamp := by
  unfold checkOrder
  split
  · simp only [reduceCtorEq, false_iff]
    omega
  · split
    · simp only [reduceCtorEq, false_iff]
      omega
    · simp only [true_iff]
      omega

/-- Events are in order if the first one is, and the others are behind it. -/
theorem inOrder_cons {previous : Int} {event : Event} {ahead : List Event} :
    InOrder previous (event :: ahead) ↔
      (0 ≤ event.timestamp ∧ previous ≤ event.timestamp) ∧ InOrder event.timestamp ahead := by
  constructor
  · rintro ⟨sorted, natural, behind⟩
    obtain ⟨least, rest⟩ := List.pairwise_cons.mp sorted
    exact ⟨⟨natural event List.mem_cons_self, behind event List.mem_cons_self⟩,
      rest, fun e he => natural e (List.mem_cons_of_mem _ he), least⟩
  · rintro ⟨⟨hnatural, hbehind⟩, sorted, natural, behind⟩
    refine ⟨List.pairwise_cons.mpr ⟨behind, sorted⟩, ?_, ?_⟩
    · exact List.forall_mem_cons.mpr ⟨hnatural, natural⟩
    · exact List.forall_mem_cons.mpr ⟨hbehind, fun e he => Int.le_trans hbehind (behind e he)⟩

/-- The check of the order accepts exactly the lists in order. -/
theorem follow_ok_iff {previous : Int} {events : List Event} :
    (∃ next, follow previous events = .ok next) ↔ InOrder previous events := by
  induction events generalizing previous with
  | nil => exact ⟨fun _ => ⟨.nil, by simp, by simp⟩, fun _ => ⟨previous, rfl⟩⟩
  | cons event ahead ih =>
      rw [inOrder_cons, ← ih, follow]
      cases hcheck : checkOrder event previous with
      | ok _ => simp [checkOrder_ok_iff.mp hcheck]
      | error error =>
          have refused : ¬ (0 ≤ event.timestamp ∧ previous ≤ event.timestamp) := fun h => by
            rw [checkOrder_ok_iff.mpr h] at hcheck
            cases hcheck
          simp [refused]

/-! ### The grid -/

/-- Bin `i` of the grid up to `last`, without a weight. -/
def span (interval last : Int) (i : Nat) : Bin :=
  ⟨i * interval, min ((i + 1) * interval) (last + 1), 0.0⟩

/-- Bin `i` of the grid up to `last` with the weights of the events in it. -/
def cell (interval last : Int) (events : List Event) (i : Nat) : Bin :=
  { span interval last i with weight := sumFrom 0.0 ((span interval last i).slice events) }

/-- The number of bins of the grid up to `last`. -/
def gridSize (interval last : Int) : Nat := (last / interval).toNat + 1

/-- All bins of the grid. -/
def grid (interval last : Int) (events : List Event) : List Bin :=
  (List.range (gridSize interval last)).map (cell interval last events)

/-- The slice of a bin holds the events from its start to before its end. -/
theorem mem_slice {bin : Bin} {events : List Event} {event : Event} :
    event ∈ bin.slice events ↔
      event ∈ events ∧ bin.start ≤ event.timestamp ∧ event.timestamp < bin.finish := by
  simp [Bin.slice, Bin.contains]

/-- The bins of the grid up to `last` are those that do not start behind it. -/
theorem lt_gridSize_iff {interval last : Int} (positive : 0 < interval) (natural : 0 ≤ last)
    {i : Nat} : i < gridSize interval last ↔ i * interval ≤ last := by
  have := Int.ediv_nonneg natural (Int.le_of_lt positive)
  rw [← Int.le_ediv_iff_mul_le positive, gridSize]
  omega

/-- A timestamp leaves room for the end of a bin unless it is the greatest one. -/
theorem room_iff {last : Int} (natural : 0 ≤ last) :
    Tick.InRange (last + 1) ↔ last < Tick.greatest := by
  simp only [Tick.InRange, Tick.least, Tick.greatest]
  omega

/-- What holds in front of bin `k`: it starts at its place on the grid, the boundary is the place of
the next one unless that lies past `last`, and the events ahead lie between the start and `last`. -/
structure AtBin (interval last : Int) (k : Nat) (start : Int) (boundary : Option Int)
    (ahead : List Event) : Prop where
  origin : start = k * interval
  reached : start ≤ last
  place : ∀ limit, boundary = some limit → limit = start + interval
  closing : boundary = none → last < start + interval
  sorted : ahead.Pairwise fun a b => a.timestamp ≤ b.timestamp
  inside : ∀ event ∈ ahead, start ≤ event.timestamp ∧ event.timestamp ≤ last

namespace AtBin

variable {interval last : Int} {k : Nat} {start limit : Int} {boundary : Option Int}
  {ahead : List Event}

theorem natural (h : AtBin interval last k start boundary ahead) (positive : 0 < interval) :
    0 ≤ start := by
  rw [h.origin]
  exact Int.mul_nonneg (Int.natCast_nonneg k) (Int.le_of_lt positive)

/-- The place of the next bin. -/
theorem next_place (h : AtBin interval last k start boundary ahead) :
    ((k : Int) + 1) * interval = start + interval := by
  rw [Int.add_mul, Int.one_mul, h.origin]

theorem lt_gridSize (h : AtBin interval last k start boundary ahead) (positive : 0 < interval) :
    k < gridSize interval last :=
  (lt_gridSize_iff positive (Int.le_trans (h.natural positive) h.reached)).mpr
    (h.origin ▸ h.reached)

/-- There is another bin exactly if the last event is not in this one. -/
theorem succ_lt_gridSize_iff (h : AtBin interval last k start boundary ahead)
    (positive : 0 < interval) : k + 1 < gridSize interval last ↔ start + interval ≤ last := by
  rw [lt_gridSize_iff positive (Int.le_trans (h.natural positive) h.reached), Int.natCast_succ,
    h.next_place]

/-- Among the events ahead, those of this bin come first. -/
theorem once (h : AtBin interval last k start boundary ahead) :
    ahead.Pairwise fun a b => before (some limit) b = true → before (some limit) a = true := by
  refine h.sorted.imp fun hab hb => ?_
  simp only [before, Option.all_some, decide_eq_true_eq] at hb ⊢
  omega

/-- A bin in front of `last` ends at the boundary. -/
theorem span_closed (h : AtBin interval last k start (some limit) ahead) (within : limit ≤ last) :
    span interval last k = ⟨start, limit, 0.0⟩ := by
  have hlimit := h.place limit rfl
  have hfinish : min ((k + 1) * interval) (last + 1) = limit := by
    rw [h.next_place]
    omega
  rw [span, hfinish, h.origin]

/-- The bin that reaches past `last` ends right after it. -/
theorem span_final (h : AtBin interval last k start boundary ahead)
    (past : last < start + interval) : span interval last k = ⟨start, last + 1, 0.0⟩ := by
  have hfinish : min ((k + 1) * interval) (last + 1) = last + 1 := by
    rw [h.next_place]
    omega
  rw [span, hfinish, h.origin]

/-- What is taken up to the boundary is what lies in the bin. -/
theorem taken (h : AtBin interval last k start (some limit) ahead) (within : limit ≤ last) :
    ahead.takeWhile (before (some limit)) = (span interval last k).slice ahead := by
  rw [Ascending.takeWhile_eq_filter h.once, h.span_closed within]
  refine List.filter_congr fun event hevent => ?_
  simp [before, Bin.contains, (h.inside event hevent).1]

/-- What is left behind the boundary is what does not lie before it. -/
theorem left (h : AtBin interval last k start (some limit) ahead) :
    ahead.dropWhile (before (some limit)) = ahead.filter fun event => limit ≤ event.timestamp := by
  rw [Ascending.dropWhile_eq_filter h.once]
  refine List.filter_congr fun event _ => ?_
  simp only [before, Option.all_some]
  by_cases hevent : event.timestamp < limit
  · simp [hevent]
  · simp [hevent, Int.not_lt.mp hevent]

/-- Taking up to the boundary leaves the later bins what they have. -/
theorem later (h : AtBin interval last k start (some limit) ahead) (positive : 0 < interval)
    {i : Nat} (hi : k < i) :
    (span interval last i).slice (ahead.dropWhile (before (some limit))) =
      (span interval last i).slice ahead := by
  rw [h.left, Bin.slice, Bin.slice, List.filter_filter]
  refine List.filter_congr fun event _ => ?_
  have hlimit : limit ≤ i * interval := by
    rw [h.place limit rfl, ← h.next_place]
    exact Int.mul_le_mul_of_nonneg_right (by omega) (Int.le_of_lt positive)
  by_cases hevent : i * interval ≤ event.timestamp
  · simp [Int.le_trans hlimit hevent]
  · simp [Bin.contains, span, hevent]

/-- Closing a bin leads in front of the next one. -/
theorem next (h : AtBin interval last k start (some limit) ahead) (within : limit ≤ last)
    (room : Tick.InRange (last + 1)) (positive : 0 < interval) :
    AtBin interval last (k + 1) limit (nextBoundary limit interval)
      (ahead.dropWhile (before (some limit))) where
  origin := by rw [h.place limit rfl, Int.natCast_succ, h.next_place]
  reached := within
  place next hnext := by
    unfold nextBoundary at hnext
    split at hnext
    · exact (Option.some.inj hnext).symm
    · cases hnext
  closing hnext := by
    have hlimit := h.place limit rfl
    have hnatural := h.natural positive
    unfold nextBoundary at hnext
    split at hnext
    · cases hnext
    · rename_i outside
      simp only [Tick.InRange, Tick.least, Tick.greatest] at outside room
      omega
  sorted := by rw [h.left]; exact h.sorted.filter _
  inside event hevent := by
    rw [h.left, List.mem_filter, decide_eq_true_eq] at hevent
    exact ⟨hevent.2, (h.inside event hevent.1).2⟩

/-- The last bin holds all that is left. -/
theorem rest (h : AtBin interval last k start boundary ahead) (past : last < start + interval) :
    (span interval last k).slice ahead = ahead := by
  rw [h.span_final past]
  refine List.filter_eq_self.mpr fun event hevent => ?_
  have hinside := h.inside event hevent
  simp only [Bin.contains, Bool.and_eq_true, decide_eq_true_eq]
  omega

/-- A bin that is closed in front of `last` is not the last one. -/
theorem inner (h : AtBin interval last k start (some limit) ahead) (within : limit ≤ last)
    (positive : 0 < interval) : k + 1 < gridSize interval last := by
  rw [h.succ_lt_gridSize_iff positive, ← h.place limit rfl]
  exact within

/-- With the next place past `last` one bin is left. -/
theorem one_left (h : AtBin interval last k start boundary ahead)
    (past : last < start + interval) (positive : 0 < interval) :
    gridSize interval last - k = 1 := by
  have here := h.lt_gridSize positive
  have beyond : ¬ k + 1 < gridSize interval last := by
    rw [h.succ_lt_gridSize_iff positive]
    omega
  omega

end AtBin

/-! ### The loop -/

/-- An event out of order stops the loop, whichever bin it would fall into. -/
theorem binsFrom_error {interval last : Int} {positive : 0 < interval} {start : Int}
    {boundary : Option Int} {previous : Int} {ahead : List Event} {done : List Bin} {error : Error}
    (refused : follow previous ahead = .error error) :
    binsFrom interval last positive start boundary previous ahead done = .error error := by
  have at_end : ∀ (start : Int) (previous : Int) (ahead : List Event) (done : List Bin),
      follow previous ahead = .error error →
        binsFrom.finalBin last previous ahead done start = .error error := by
    intro start previous ahead done refused
    rw [binsFrom.finalBin, fill_none, refused]
    rfl
  fun_induction binsFrom interval last positive start boundary previous ahead done with
  | case1 start previous ahead done limit within stop hfill =>
      rw [follow_of_fill_error hfill] at refused
      cases refused
      rfl
  | case2 start previous ahead done limit within filled hfill ih =>
      exact ih ((follow_of_fill_ok hfill).1 ▸ refused)
  | case3 start previous ahead done limit past => exact at_end _ _ _ _ refused
  | case4 start previous ahead done => exact at_end _ _ _ _ refused

section Loop

variable {interval last : Int} {start : Int} {boundary : Option Int} {previous : Int}
  {ahead : List Event} {done : List Bin} {k : Nat}

/-- The last bin takes all events that are left, and ends the grid. -/
theorem finalBin_grid (h : AtBin interval last k start boundary ahead)
    (past : last < start + interval) (positive : 0 < interval)
    (ordered : ∃ next, follow previous ahead = .ok next) :
    binsFrom.finalBin last previous ahead done start =
      .ok (done.reverse ++
        (List.range' k (gridSize interval last - k)).map (cell interval last ahead)) := by
  obtain ⟨next, accepted⟩ := ordered
  have final_cell : cell interval last ahead k = ⟨start, last + 1, sumFrom 0.0 ahead⟩ := by
    rw [cell, h.rest past, h.span_final past]
  rw [binsFrom.finalBin, fill_none, accepted, h.one_left past positive]
  simp [Except.map, final_cell]

/-- What the loop makes of events in order: the bins that are done, then the rest of the grid. -/
theorem binsFrom_grid {positive : 0 < interval}
    (h : AtBin interval last k start boundary ahead) (room : Tick.InRange (last + 1))
    (ordered : ∃ next, follow previous ahead = .ok next) :
    binsFrom interval last positive start boundary previous ahead done =
      .ok (done.reverse ++
        (List.range' k (gridSize interval last - k)).map (cell interval last ahead)) := by
  fun_induction binsFrom interval last positive start boundary previous ahead done
    generalizing k with
  | case1 start previous ahead done limit within stop hfill =>
      obtain ⟨next, accepted⟩ := ordered
      rw [follow_of_fill_error hfill] at accepted
      cases accepted
  | case2 start previous ahead done limit within filled hfill ih =>
      obtain ⟨hfollow, hweight, hahead⟩ := follow_of_fill_ok hfill
      have hsize := h.inner within positive
      have first_cell : cell interval last ahead k = ⟨start, limit, filled.weight⟩ := by
        rw [cell, ← h.taken within, ← hweight, h.span_closed within]
      have later_cells :
          (List.range' (k + 1) (gridSize interval last - (k + 1))).map
              (cell interval last filled.ahead) =
            (List.range' (k + 1) (gridSize interval last - (k + 1))).map
              (cell interval last ahead) := by
        refine List.map_congr_left fun i hi => ?_
        have hki : k < i := (List.mem_range'_1.mp hi).1
        rw [cell, cell, hahead, h.later positive hki]
      rw [ih (hahead ▸ h.next within room positive) (hfollow ▸ ordered), later_cells,
        show gridSize interval last - k = (gridSize interval last - (k + 1)) + 1 by omega,
        List.range'_succ, List.map_cons, first_cell]
      simp
  | case3 start previous ahead done limit past =>
      exact finalBin_grid h (h.place limit rfl ▸ Int.not_le.mp past) positive ordered
  | case4 start previous ahead done => exact finalBin_grid h (h.closing rfl) positive ordered

/-- The bins that are left share the events ahead among them, in order. -/
theorem flatten_slices (h : AtBin interval last k start boundary ahead)
    (room : Tick.InRange (last + 1)) (positive : 0 < interval) :
    ((List.range' k (gridSize interval last - k)).map fun i =>
      (span interval last i).slice ahead).flatten = ahead := by
  induction size : gridSize interval last - k generalizing k start boundary ahead with
  | zero =>
      have := h.lt_gridSize positive
      omega
  | succ m ih =>
      by_cases past : last < start + interval
      · have one := h.one_left past positive
        obtain rfl : m = 0 := by omega
        simp [h.rest past]
      · cases hboundary : boundary with
        | none => exact absurd (h.closing hboundary) past
        | some limit =>
            rw [hboundary] at h
            have within : limit ≤ last := by
              have := h.place limit rfl
              omega
            have later_slices :
                ((List.range' (k + 1) m).map fun i => (span interval last i).slice ahead) =
                  (List.range' (k + 1) m).map fun i =>
                    (span interval last i).slice (ahead.dropWhile (before (some limit))) :=
              List.map_congr_left fun i hi =>
                (h.later positive (List.mem_range'_1.mp hi).1).symm
            rw [List.range'_succ, List.map_cons, List.flatten_cons, later_slices,
              ih (h.next within room positive) (by omega), ← h.taken within,
              List.takeWhile_append_dropWhile]

end Loop

/-! ### The series -/

section Whole

variable {events : List Event} {final : Event} {interval : Int}

/-- No event of a sorted list is later than its last one. -/
theorem le_final (sorted : events.Pairwise fun a b => a.timestamp ≤ b.timestamp)
    (last : events.getLast? = some final) :
    ∀ event ∈ events, event.timestamp ≤ final.timestamp := by
  intro event hevent
  obtain ⟨front, rfl⟩ := List.getLast?_eq_some_iff.mp last
  rcases List.mem_append.mp hevent with hfront | hfinal
  · exact (List.pairwise_append.mp sorted).2.2 event hfront final List.mem_cons_self
  · exact Int.le_of_eq (congrArg Event.timestamp (List.mem_singleton.mp hfinal))

/-- Events in order stand in front of bin zero. -/
theorem AtBin.zero (last : events.getLast? = some final)
    (order : InOrder 0 events) :
    AtBin interval final.timestamp 0 0 (some interval) events where
  origin := by simp
  reached := order.natural final (List.mem_of_getLast? last)
  place limit hlimit := by rw [Int.zero_add]; exact (Option.some.inj hlimit).symm
  closing absent := by cases absent
  sorted := order.sorted
  inside event hevent := ⟨order.natural event hevent, le_final order.sorted last event hevent⟩

/-- **The series of a list of events.** If the last timestamp leaves room for the final bin, the
series is the grid up to it, unless the check of the order refuses an event. -/
theorem ofEvents_grid (positive : 0 < interval) (last : events.getLast? = some final) :
    ofEvents events interval =
      if Tick.InRange (final.timestamp + 1) then
        (follow 0 events).map fun _ => ⟨interval, grid interval final.timestamp events⟩
      else .error (.invalidInput (.noFinalBin final.timestamp)) := by
  simp only [ofEvents, dif_pos positive, last]
  by_cases room : Tick.InRange (final.timestamp + 1)
  · rw [if_pos room, if_pos room]
    cases hfollow : follow 0 events with
    | error error =>
        rw [binsFrom_error hfollow]
        rfl
    | ok next =>
        have start : AtBin interval final.timestamp 0 0 (some interval) events :=
          AtBin.zero last (follow_ok_iff.mp ⟨next, hfollow⟩)
        rw [binsFrom_grid start room ⟨next, hfollow⟩, Nat.sub_zero, ← List.range_eq_range']
        rfl
  · rw [if_neg room, if_neg room]

/-- Events in order that leave room for the last bin have a series. -/
theorem ofEvents_inOrder (positive : 0 < interval) (last : events.getLast? = some final)
    (room : Tick.InRange (final.timestamp + 1)) (order : InOrder 0 events) :
    ofEvents events interval = .ok ⟨interval, grid interval final.timestamp events⟩ := by
  obtain ⟨next, accepted⟩ := follow_ok_iff.mpr order
  rw [ofEvents_grid positive last, if_pos room, accepted]
  rfl

/-- Events that have a series are in order, leave room for the last bin, and lie on the grid. -/
theorem of_ofEvents_ok (positive : 0 < interval) {series : Series}
    (accepted : ofEvents events interval = .ok series) :
    ∃ final, events.getLast? = some final ∧ Tick.InRange (final.timestamp + 1) ∧
      InOrder 0 events ∧ series = ⟨interval, grid interval final.timestamp events⟩ := by
  cases last : events.getLast? with
  | none =>
      rw [ofEvents, dif_pos positive, last] at accepted
      cases accepted
  | some final =>
      rw [ofEvents_grid positive last] at accepted
      split at accepted
      · rename_i room
        cases hfollow : follow 0 events with
        | error error =>
            rw [hfollow] at accepted
            cases accepted
        | ok next =>
            rw [hfollow] at accepted
            cases accepted
            exact ⟨final, rfl, room, follow_ok_iff.mp ⟨next, hfollow⟩, rfl⟩
      · cases accepted

end Whole

/-! ### The tiling -/

theorem length_grid (interval last : Int) (events : List Event) :
    (grid interval last events).length = gridSize interval last := by
  simp [grid]

theorem getElem_grid {interval last : Int} {events : List Event} {i : Nat}
    (h : i < (grid interval last events).length) :
    (grid interval last events)[i] = cell interval last events i := by
  simp [grid]

theorem mem_grid {interval last : Int} {events : List Event} {bin : Bin} :
    bin ∈ grid interval last events ↔
      ∃ i < gridSize interval last, cell interval last events i = bin := by
  simp [grid]

/-- The number of bins is a quotient. -/
theorem gridSize_eq {interval last : Int} (positive : 0 < interval) (natural : 0 ≤ last) :
    (gridSize interval last : Int) = last / interval + 1 := by
  have := Int.ediv_nonneg natural (Int.le_of_lt positive)
  simp only [gridSize]
  omega

/-- All bins but the last end where the next one starts; the last one ends right after `last`. -/
theorem span_finish {interval last : Int} (positive : 0 < interval) (natural : 0 ≤ last)
    (i : Nat) :
    (span interval last i).finish =
      if i + 1 < gridSize interval last then (i + 1) * interval else last + 1 := by
  have next := lt_gridSize_iff positive natural (i := i + 1)
  rw [Int.natCast_succ] at next
  simp only [span]
  split <;> omega

/-- Every place on the grid lies between zero and the end of the last bin. -/
theorem span_inside {interval last : Int} (positive : 0 < interval) (natural : 0 ≤ last) {i : Nat}
    (h : i < gridSize interval last) :
    0 ≤ (span interval last i).start ∧
      (span interval last i).start < (span interval last i).finish ∧
      (span interval last i).finish ≤ last + 1 := by
  have hstart : i * interval ≤ last := (lt_gridSize_iff positive natural).mp h
  have hzero : 0 ≤ i * interval := Int.mul_nonneg (Int.natCast_nonneg i) (Int.le_of_lt positive)
  simp only [span, Int.add_mul, Int.one_mul]
  omega

/-- **The bins tile the axis and share out the events.** Events that are in order, neither negative
nor at the greatest timestamp have `last / interval + 1` bins. Bin `i` starts at `i * interval` and
ends where the next one starts, the last one right after the last event, and no number on the way
leaves the range. Put one after the other, the slices of the bins are the events again, and each bin
weighs what its slice adds up to from left to right. -/
theorem ofEvents_tiles (events : List Event) (interval : Int) (positive : 0 < interval)
    (nonempty : events ≠ []) (natural : ∀ event ∈ events, 0 ≤ event.timestamp)
    (below : ∀ event ∈ events, event.timestamp < Tick.greatest)
    (sorted : events.Pairwise fun a b => a.timestamp ≤ b.timestamp) :
    ∃ bins : List Bin,
      ofEvents events interval = .ok ⟨interval, bins⟩ ∧
      (bins.length : Int) = (events.getLast nonempty).timestamp / interval + 1 ∧
      (∀ i (h : i < bins.length), bins[i].start = i * interval ∧
        bins[i].finish =
          if i + 1 < bins.length then (i + 1) * interval
          else (events.getLast nonempty).timestamp + 1) ∧
      Tick.InRange (bins.length : Int) ∧
      (∀ bin ∈ bins, Tick.InRange bin.start ∧ Tick.InRange bin.finish) ∧
      (bins.map fun bin => bin.slice events).flatten = events ∧
      ∀ bin ∈ bins, bin.weight = sumFrom 0.0 (bin.slice events) := by
  have last := List.getLast?_eq_some_getLast nonempty
  have member := List.getLast_mem nonempty
  generalize events.getLast nonempty = final at last member ⊢
  have hnatural := natural final member
  have room : Tick.InRange (final.timestamp + 1) := (room_iff hnatural).mpr (below final member)
  have order : InOrder 0 events := ⟨sorted, natural, natural⟩
  obtain ⟨next, accepted⟩ := follow_ok_iff.mpr order
  have hsize := gridSize_eq positive hnatural
  have hlength := length_grid interval final.timestamp events
  refine ⟨grid interval final.timestamp events, ?_, ?_, ?_, ?_, ?_, ?_, ?_⟩
  · rw [ofEvents_grid positive last, if_pos room, accepted]
    rfl
  · rw [hlength, hsize]
  · intro i hi
    rw [getElem_grid, hlength]
    exact ⟨rfl, span_finish positive hnatural i⟩
  · have hquotient := Int.ediv_le_self interval hnatural
    rw [hlength]
    simp only [Tick.InRange, Tick.least, Tick.greatest] at room ⊢
    omega
  · intro bin hbin
    obtain ⟨i, hi, rfl⟩ := mem_grid.mp hbin
    have hinside := span_inside positive hnatural hi
    simp only [Tick.InRange, Tick.least, Tick.greatest, cell] at room ⊢
    omega
  · have start : AtBin interval final.timestamp 0 0 (some interval) events := AtBin.zero last order
    have shared := flatten_slices start room positive
    rw [Nat.sub_zero, ← List.range_eq_range'] at shared
    rw [grid, List.map_map]
    exact shared
  · intro bin hbin
    obtain ⟨i, -, rfl⟩ := mem_grid.mp hbin
    rfl

/-- An event on a boundary, and one as late as an event may be. -/
def lateEvents : List Event :=
  [.count 0, .count 4611686018427387904, .count 9223372036854775806]

/-- Of the late events the boundary after the second bin is out of range. -/
theorem ofEvents_tiles_late :
    (∀ event ∈ lateEvents, 0 ≤ event.timestamp ∧ event.timestamp < Tick.greatest) ∧
      (lateEvents.Pairwise fun a b => a.timestamp ≤ b.timestamp) ∧
      ¬ Tick.InRange (2 * 4611686018427387904) ∧
      ∃ bins : List Bin, ofEvents lateEvents 4611686018427387904 =
          .ok ⟨4611686018427387904, bins⟩ ∧
        bins.length = 2 ∧
        (bins.map fun bin => bin.slice lateEvents).flatten = lateEvents := by
  have bounds : ∀ event ∈ lateEvents, 0 ≤ event.timestamp ∧ event.timestamp < Tick.greatest := by
    simp [lateEvents, Event.count, Tick.greatest]
  have sorted : lateEvents.Pairwise fun a b => a.timestamp ≤ b.timestamp := by
    simp [lateEvents, Event.count]
  obtain ⟨bins, hbins, hlength, -, -, -, hslices, -⟩ :=
    ofEvents_tiles lateEvents 4611686018427387904 (by decide) (by simp [lateEvents])
      (fun event h => (bounds event h).1) (fun event h => (bounds event h).2) sorted
  have two : (bins.length : Int) = 2 := hlength
  exact ⟨bounds, sorted, by decide, bins, hbins, by omega, hslices⟩

end Series

end GridReport
