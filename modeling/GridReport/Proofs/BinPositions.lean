import GridReport.Proofs.Grid

/-!
Which bin of a series covers a timestamp.

The search goes through the bins from the front and compares; on the grid the number of the bin is
the quotient of the timestamp by the interval. The two differ where the last bin is cut off: past
the last event there is no bin, although the quotient may still be the number of the last one.

* `contains_cell_iff` — the timestamps that bin `i` of the grid covers.
* `findIdx?_grid` — the search over a grid.
* `binIndex?_eq_quotient` — the search over the series of a list of events.
-/

namespace GridReport.Series

variable {interval last : Int} {events : List Event}

/-- Bin `i` of the grid covers the timestamps up to `last` whose quotient by the interval is `i`. -/
theorem contains_cell_iff (positive : 0 < interval) {i : Nat} {timestamp : Int} :
    (cell interval last events i).contains timestamp = true ↔
      (0 ≤ timestamp ∧ timestamp ≤ last) ∧ timestamp / interval = i := by
  have quotient : timestamp / interval = i ↔
      i * interval ≤ timestamp ∧ timestamp < (i + 1) * interval := by
    have from_below := Int.le_ediv_iff_mul_le (a := i) (b := timestamp) positive
    have from_above := Int.ediv_lt_iff_lt_mul (a := timestamp) (b := i + 1) positive
    omega
  have natural : 0 ≤ i * interval :=
    Int.mul_nonneg (Int.natCast_nonneg i) (Int.le_of_lt positive)
  simp only [Bin.contains, Bool.and_eq_true, decide_eq_true_eq, quotient]
  simp only [cell, span]
  omega

/-- A timestamp from zero to `last` has its place on the grid. -/
theorem quotient_lt_gridSize (positive : 0 < interval) {timestamp : Int} (natural : 0 ≤ timestamp)
    (early : timestamp ≤ last) : (timestamp / interval).toNat < gridSize interval last := by
  have rounded := Int.ediv_mul_le timestamp (Int.ne_of_gt positive)
  rw [lt_gridSize_iff positive (Int.le_trans natural early),
    Int.toNat_of_nonneg (Int.ediv_nonneg natural (Int.le_of_lt positive))]
  exact Int.le_trans rounded early

/-- A search over the grid stops at the only bin that covers the timestamp. -/
theorem findIdx?_grid (positive : 0 < interval) {timestamp : Int} {i : Nat} :
    (grid interval last events).findIdx? (·.contains timestamp) = some i ↔
      (0 ≤ timestamp ∧ timestamp ≤ last) ∧ timestamp / interval = i := by
  rw [List.findIdx?_eq_some_iff_getElem]
  simp only [getElem_grid, contains_cell_iff positive, length_grid]
  constructor
  · rintro ⟨-, covered, -⟩
    exact covered
  · rintro ⟨inside, place⟩
    have listed := quotient_lt_gridSize positive inside.1 inside.2
    rw [place, Int.toNat_natCast] at listed
    refine ⟨listed, ⟨inside, place⟩, ?_⟩
    rintro j before ⟨-, elsewhere⟩
    omega

/-- Only a positive interval has series. -/
theorem positive_of_ofEvents_ok {series : Series}
    (accepted : ofEvents events interval = .ok series) : 0 < interval := by
  by_contra nonpositive
  rw [ofEvents, dif_neg nonpositive] at accepted
  cases accepted

/-- **The search for a bin agrees with division.** In the series of a list of events, the bin found
for a timestamp is the one whose number is the quotient of the timestamp by the interval, if the
timestamp lies between zero and the last event; for any other timestamp none is found. A bin that
covers a timestamp is the one that is found for it, so no two of them do. -/
theorem binIndex?_eq_quotient (events : List Event) (interval : Int) (series : Series)
    (accepted : ofEvents events interval = .ok series) :
    ∃ final, events.getLast? = some final ∧ ∀ timestamp : Int,
      series.binIndex? timestamp =
        (if 0 ≤ timestamp ∧ timestamp ≤ final.timestamp then some (timestamp / interval).toNat
          else none) ∧
      ∀ index (h : index < series.bins.length), series.bins[index].contains timestamp = true →
        series.binIndex? timestamp = some index := by
  have positive := positive_of_ofEvents_ok accepted
  obtain ⟨final, last, -, -, rfl⟩ := of_ofEvents_ok positive accepted
  refine ⟨final, last, fun timestamp => ⟨?_, ?_⟩⟩
  · split
    · rename_i inside
      have place : timestamp / interval = ((timestamp / interval).toNat : Int) :=
        (Int.toNat_of_nonneg (Int.ediv_nonneg inside.1 (Int.le_of_lt positive))).symm
      exact (findIdx?_grid positive).mpr ⟨inside, place⟩
    · rename_i outside
      exact Option.eq_none_iff_forall_ne_some.mpr fun _ found =>
        outside ((findIdx?_grid positive).mp found).1
  · intro index listed covers
    rw [getElem_grid listed] at covers
    exact (findIdx?_grid positive).mpr ((contains_cell_iff positive).mp covers)

/-- With the interval four the last bin of the late events covers three timestamps: the greatest one
has the same quotient and is in no bin. -/
theorem binIndex?_eq_quotient_late :
    ∃ series, ofEvents lateEvents 4 = .ok series ∧
      series.binIndex? (Tick.greatest - 1) = some 2305843009213693951 ∧
      Tick.greatest / 4 = 2305843009213693951 ∧ series.binIndex? Tick.greatest = none := by
  have order : InOrder 0 lateEvents :=
    ⟨by simp [lateEvents, Event.count], by simp [lateEvents, Event.count],
      by simp [lateEvents, Event.count]⟩
  have last : lateEvents.getLast? = some (.count 9223372036854775806) := rfl
  obtain ⟨series, accepted⟩ : ∃ series, ofEvents lateEvents 4 = .ok series :=
    ⟨_, ofEvents_inOrder (by decide) last (by decide) order⟩
  obtain ⟨final, last, places⟩ := binIndex?_eq_quotient lateEvents 4 series accepted
  cases last
  refine ⟨series, accepted, ?_, by decide, ?_⟩
  · rw [(places _).1]
    decide
  · rw [(places _).1]
    decide

end GridReport.Series
