import GridReport.Proofs.Grid

/-!
Which lists of events have a series, and what the others are refused for.

The order of the events is checked piece by piece, bin after bin, and where a bin ends depends on
the last event, which may itself be out of place. The pieces add up to one check of the whole list:
every event is looked at once, in the order of the list, against the one in front of it.

* `checkOrder_eq_error_iff`, `follow_eq_error_iff` — the check stops at the first event that is out
  of place.
* `binsFrom_verdict` — in every state of the loop it depends on the events ahead alone whether the
  loop succeeds.
* `ofEvents_decides` — the lists with a series, and the one reason for which any other is refused.
-/

namespace GridReport.Series

/-- The timestamp that an event behind the events in front has to follow. -/
def latest (previous : Int) (front : List Event) : Int :=
  (front.getLast?.map Event.timestamp).getD previous

@[simp] theorem latest_nil (previous : Int) : latest previous [] = previous := rfl

@[simp] theorem latest_cons (previous : Int) (event : Event) (front : List Event) :
    latest previous (event :: front) = latest event.timestamp front := by
  cases front with
  | nil => rfl
  | cons next front =>
      unfold latest
      rw [List.getLast?_cons_cons, List.getLast?_cons]
      rfl

/-- What an event is refused for by the check of the order. -/
inductive Offends (previous : Int) (event : Event) : InputCause → Prop where
  | negative (below : event.timestamp < 0) :
      Offends previous event (.negativeTimestamp event.timestamp)
  | unsorted (natural : 0 ≤ event.timestamp) (earlier : event.timestamp < previous) :
      Offends previous event (.unsorted event.timestamp previous)

/-- An event is refused for one of two reasons, and only the first that applies is told. -/
theorem checkOrder_eq_error_iff {event : Event} {previous : Int} {error : Error} :
    checkOrder event previous = .error error ↔
      ∃ cause, error = .invalidInput cause ∧ Offends previous event cause := by
  unfold checkOrder
  constructor
  · intro refused
    split at refused
    · rename_i below
      cases refused
      exact ⟨_, rfl, .negative below⟩
    · rename_i natural
      split at refused
      · rename_i earlier
        cases refused
        exact ⟨_, rfl, .unsorted (Int.not_lt.mp natural) earlier⟩
      · cases refused
  · rintro ⟨cause, rfl, offends⟩
    cases offends with
    | negative below => rw [if_pos below]
    | unsorted natural earlier => rw [if_neg (Int.not_lt.mpr natural), if_pos earlier]

/-- The check of the order stops at the first event that may not follow the one in front of it. -/
theorem follow_eq_error_iff {previous : Int} {events : List Event} {error : Error} :
    follow previous events = .error error ↔
      ∃ front event back, events = front ++ event :: back ∧ InOrder previous front ∧
        checkOrder event (latest previous front) = .error error := by
  induction events generalizing previous with
  | nil =>
      constructor
      · intro refused
        cases refused
      · rintro ⟨front, event, back, split, -⟩
        simp at split
  | cons head ahead ih =>
      rw [follow]
      cases checked : checkOrder head previous with
      | error stop =>
          constructor
          · intro refused
            cases refused
            exact ⟨[], head, ahead, rfl, ⟨.nil, by simp, by simp⟩, checked⟩
          · rintro ⟨front, event, back, split, order, refused⟩
            cases front with
            | nil =>
                obtain ⟨rfl, rfl⟩ := List.cons.inj split
                rw [latest_nil, checked] at refused
                cases refused
                rfl
            | cons first front =>
                obtain ⟨rfl, -⟩ := List.cons.inj split
                rw [checkOrder_ok_iff.mpr (inOrder_cons.mp order).1] at checked
                cases checked
      | ok _ =>
          have placed := checkOrder_ok_iff.mp checked
          constructor
          · intro refused
            obtain ⟨front, event, back, rfl, order, stops⟩ := ih.mp refused
            exact ⟨head :: front, event, back, rfl, inOrder_cons.mpr ⟨placed, order⟩,
              by rwa [latest_cons]⟩
          · rintro ⟨front, event, back, split, order, refused⟩
            cases front with
            | nil =>
                obtain ⟨rfl, rfl⟩ := List.cons.inj split
                rw [latest_nil, checked] at refused
                cases refused
            | cons first front =>
                obtain ⟨rfl, rfl⟩ := List.cons.inj split
                rw [latest_cons] at refused
                exact ih.mpr ⟨front, event, back, rfl, (inOrder_cons.mp order).2, refused⟩

/-- Wherever the boundaries fall, the loop checks each event that is ahead once, in order, against
the one in front of it: it is refused with what that check is refused with, and by nothing else. -/
theorem binsFrom_verdict (interval last : Int) (positive : 0 < interval) (start : Int)
    (boundary : Option Int) (previous : Int) (ahead : List Event) (done : List Bin) :
    (binsFrom interval last positive start boundary previous ahead done).map (fun _ => ()) =
      (follow previous ahead).map fun _ => () := by
  have at_end : ∀ (start previous : Int) (ahead : List Event) (done : List Bin),
      (binsFrom.finalBin last previous ahead done start).map (fun _ => ()) =
        (follow previous ahead).map fun _ => () := by
    intro start previous ahead done
    rw [binsFrom.finalBin, fill_none]
    cases follow previous ahead with
    | error error => rfl
    | ok next => rfl
  fun_induction binsFrom interval last positive start boundary previous ahead done with
  | case1 start previous ahead done limit within stop hfill =>
      rw [follow_of_fill_error hfill]
      rfl
  | case2 start previous ahead done limit within filled hfill ih =>
      rw [ih, (follow_of_fill_ok hfill).1]
  | case3 start previous ahead done limit past => exact at_end _ _ _ _
  | case4 start previous ahead done => exact at_end _ _ _ _

/-! ### The verdict on a list -/

/-- Why a list of events has no series. -/
inductive Refusal (events : List Event) (interval : Int) : Error → Prop where
  | interval (nonpositive : interval ≤ 0) :
      Refusal events interval (.configuration (.interval interval))
  | nothing (positive : 0 < interval) (empty : events = []) :
      Refusal events interval (.noData .noEvents)
  | noRoom {final : Event} (positive : 0 < interval) (last : events.getLast? = some final)
      (greatest : final.timestamp = Tick.greatest) :
      Refusal events interval (.invalidInput (.noFinalBin final.timestamp))
  /-- The events in front of this one are in order. -/
  | misplaced {final event : Event} {front back : List Event} {cause : InputCause}
      (positive : 0 < interval) (last : events.getLast? = some final)
      (room : final.timestamp ≠ Tick.greatest) (split : events = front ++ event :: back)
      (order : InOrder 0 front) (offends : Offends (latest 0 front) event cause) :
      Refusal events interval (.invalidInput cause)

/-- What a list of events needs for a series. -/
structure Binnable (events : List Event) (interval : Int) : Prop where
  positive : 0 < interval
  nonempty : events ≠ []
  natural : ∀ event ∈ events, 0 ≤ event.timestamp
  sorted : events.Pairwise fun a b => a.timestamp ≤ b.timestamp
  room : ∀ final, events.getLast? = some final → final.timestamp ≠ Tick.greatest

section Verdict

variable {events : List Event} {interval : Int}

/-- From zero on, events are in order if each is followed by none before it and none is negative. -/
theorem inOrder_zero_iff :
    InOrder 0 events ↔
      (events.Pairwise fun a b => a.timestamp ≤ b.timestamp) ∧
        ∀ event ∈ events, 0 ≤ event.timestamp := by
  constructor
  · rintro ⟨sorted, natural, -⟩
    exact ⟨sorted, natural⟩
  · rintro ⟨sorted, natural⟩
    exact ⟨sorted, natural, natural⟩

/-- Of the timestamps in range only the greatest one leaves no room for the end of a bin. -/
theorem room_of_inRange {last : Int} (inRange : Tick.InRange last) :
    Tick.InRange (last + 1) ↔ last ≠ Tick.greatest := by
  simp only [Tick.InRange, Tick.least, Tick.greatest] at inRange ⊢
  omega

/-- With a last event that leaves room, the check of the order decides. -/
theorem ofEvents_of_room {final : Event} (positive : 0 < interval)
    (last : events.getLast? = some final) (room : Tick.InRange (final.timestamp + 1)) :
    ofEvents events interval =
      (follow 0 events).map fun _ => ⟨interval, grid interval final.timestamp events⟩ := by
  rw [ofEvents_grid positive last, if_pos room]

/-- There is a series exactly for events that can be binned. -/
theorem ofEvents_ok_iff (inRange : ∀ event ∈ events, Tick.InRange event.timestamp) :
    (∃ series, ofEvents events interval = .ok series) ↔ Binnable events interval := by
  constructor
  · rintro ⟨series, accepted⟩
    by_cases positive : 0 < interval
    · obtain ⟨final, last, room, order, -⟩ := of_ofEvents_ok positive accepted
      obtain ⟨sorted, natural⟩ := inOrder_zero_iff.mp order
      refine ⟨positive, List.ne_nil_of_mem (List.mem_of_getLast? last), natural, sorted, ?_⟩
      intro other hother
      rw [last] at hother
      cases hother
      exact (room_of_inRange (inRange final (List.mem_of_getLast? last))).mp room
    · rw [ofEvents, dif_neg positive] at accepted
      cases accepted
  · rintro ⟨positive, nonempty, natural, sorted, room⟩
    have last := List.getLast?_eq_some_getLast nonempty
    have final_inRange := inRange _ (List.getLast_mem nonempty)
    have order : InOrder 0 events := inOrder_zero_iff.mpr ⟨sorted, natural⟩
    exact ⟨_, ofEvents_inOrder positive last
      ((room_of_inRange final_inRange).mpr (room _ last)) order⟩

/-- Otherwise the refusal is the first that applies. -/
theorem ofEvents_error_iff (inRange : ∀ event ∈ events, Tick.InRange event.timestamp)
    {error : Error} : ofEvents events interval = .error error ↔ Refusal events interval error := by
  constructor
  · intro refused
    by_cases positive : 0 < interval
    · cases last : events.getLast? with
      | none =>
          rw [ofEvents, dif_pos positive, last] at refused
          cases refused
          exact .nothing positive (List.getLast?_eq_none_iff.mp last)
      | some final =>
          have final_inRange := inRange final (List.mem_of_getLast? last)
          by_cases room : final.timestamp = Tick.greatest
          · rw [ofEvents_grid positive last,
              if_neg (mt (room_of_inRange final_inRange).mp (not_not_intro room))] at refused
            cases refused
            exact .noRoom positive last room
          · rw [ofEvents_of_room positive last ((room_of_inRange final_inRange).mpr room)]
              at refused
            cases stops : follow 0 events with
            | ok next =>
                rw [stops] at refused
                cases refused
            | error stop =>
                rw [stops] at refused
                cases refused
                obtain ⟨front, event, back, split, order, checked⟩ :=
                  follow_eq_error_iff.mp stops
                obtain ⟨cause, rfl, offends⟩ := checkOrder_eq_error_iff.mp checked
                exact .misplaced positive last room split order offends
    · rw [ofEvents, dif_neg positive] at refused
      cases refused
      exact .interval (Int.not_lt.mp positive)
  · intro refusal
    cases refusal with
    | interval nonpositive => rw [ofEvents, dif_neg (Int.not_lt.mpr nonpositive)]
    | nothing positive empty =>
        rw [ofEvents, dif_pos positive, empty]
        rfl
    | noRoom positive last greatest =>
        have final_inRange := inRange _ (List.mem_of_getLast? last)
        rw [ofEvents_grid positive last,
          if_neg (mt (room_of_inRange final_inRange).mp (not_not_intro greatest))]
    | misplaced positive last room split order offends =>
        have final_inRange := inRange _ (List.mem_of_getLast? last)
        have stops : follow 0 events = .error _ :=
          follow_eq_error_iff.mpr
            ⟨_, _, _, split, order, checkOrder_eq_error_iff.mpr ⟨_, rfl, offends⟩⟩
        rw [ofEvents_of_room positive last ((room_of_inRange final_inRange).mpr room), stops]
        rfl

end Verdict

/-- **Which lists of events have a series, and why the others have none.** A list has a series
exactly if the interval is positive, there are events, none is negative or earlier than the one in
front of it, and the last one is not at the greatest timestamp. Any other list is refused, in this
order: for its interval, for being empty, for a last event that leaves no room for the final bin,
or for the first event that is negative or earlier than the one in front of it, and as negative
exactly if it is. The loop over the bins passes over no event: from each of its states, whatever the
boundaries, it goes through to the end exactly if all events ahead are in order. -/
theorem ofEvents_decides (events : List Event) (interval : Int)
    (inRange : ∀ event ∈ events, Tick.InRange event.timestamp) :
    ((∃ series, ofEvents events interval = .ok series) ↔ Binnable events interval) ∧
      (∀ error, ofEvents events interval = .error error ↔ Refusal events interval error) ∧
      (ConfigurationCause.interval interval).field = "interval" ∧
      ∀ (last : Int) (positive : 0 < interval) (start : Int) (boundary : Option Int)
        (previous : Int) (ahead : List Event) (done : List Bin),
        (∃ bins, binsFrom interval last positive start boundary previous ahead done = .ok bins) ↔
          InOrder previous ahead := by
  refine ⟨ofEvents_ok_iff inRange, fun error => ofEvents_error_iff inRange, rfl, ?_⟩
  intro last positive start boundary previous ahead done
  have verdict := binsFrom_verdict interval last positive start boundary previous ahead done
  rw [← follow_ok_iff]
  cases hbins : binsFrom interval last positive start boundary previous ahead done with
  | error error =>
      rw [hbins] at verdict
      cases hfollow : follow previous ahead with
      | error stop => simp
      | ok next =>
          rw [hfollow] at verdict
          cases verdict
  | ok bins =>
      rw [hbins] at verdict
      cases hfollow : follow previous ahead with
      | error stop =>
          rw [hfollow] at verdict
          cases verdict
      | ok next => simp

/-- The third event is earlier than the second, two bins later; the last one is negative, so that
no boundary is reached at all. -/
def disordered : List Event := [.count 1, .count 9, .count 3, .count (-2)]

theorem ofEvents_decides_disordered :
    (∀ event ∈ disordered, Tick.InRange event.timestamp) ∧ ¬ Binnable disordered 4 ∧
      ofEvents disordered 4 = .error (.invalidInput (.unsorted 3 9)) := by
  have inRange : ∀ event ∈ disordered, Tick.InRange event.timestamp := by
    simp [disordered, Event.count, Tick.InRange, Tick.least, Tick.greatest]
  obtain ⟨-, refused, -, -⟩ := ofEvents_decides disordered 4 inRange
  have order : InOrder 0 [Event.count 1, Event.count 9] :=
    inOrder_zero_iff.mpr ⟨by simp [Event.count], by simp [Event.count]⟩
  have stops : ofEvents disordered 4 = .error (.invalidInput (.unsorted 3 9)) :=
    (refused _).mpr (.misplaced (by decide) rfl (by decide)
      (show disordered = [.count 1, .count 9] ++ .count 3 :: [.count (-2)] from rfl) order
      (.unsorted (by decide) (by decide)))
  refine ⟨inRange, ?_, stops⟩
  intro binnable
  have natural := binnable.natural (.count (-2)) (by simp [disordered])
  simp [Event.count] at natural

end GridReport.Series
