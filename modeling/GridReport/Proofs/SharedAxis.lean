import GridReport.Proofs.Alignment

/-!
The shared axis is the axis of all events together.

Binning the events of two lists as one list gives the bins up to the later of the two ends, and so
does aligning the two series: the cut bin at the end of the shorter one widens to the full bin.

* `getLast?_merge` — the last event of a sorted merge.
* `ofSeries_weights`, `ofSeries_empty`, `empty_ofSeries` — the weights are kept and padded, whatever
  the two series are.
* `ofSeries_shares_axis` — the alignment of two lists of events, against their merge.
-/

namespace GridReport

/-- Where a bin starts and ends. -/
def Bin.bounds (bin : Bin) : Int × Int := (bin.start, bin.finish)

/-- The bin as a bin of an axis, without its weight. -/
def Bin.bare (bin : Bin) : Bin := ⟨bin.start, bin.finish, 0.0⟩

namespace Series

/-! ### The end of a merge -/

section Merge

variable {a b both : List Event} {finalA finalB : Event}

/-- Events of two series in order are in order together, once they are sorted. -/
theorem inOrder_of_perm (orderA : InOrder 0 a) (orderB : InOrder 0 b)
    (merge : both.Perm (a ++ b))
    (sorted : both.Pairwise fun x y => x.timestamp ≤ y.timestamp) : InOrder 0 both := by
  have natural : ∀ event ∈ both, 0 ≤ event.timestamp := by
    intro event hevent
    rcases List.mem_append.mp (merge.mem_iff.mp hevent) with h | h
    · exact orderA.natural event h
    · exact orderB.natural event h
  exact ⟨sorted, natural, natural⟩

/-- The last event of a sorted merge is as late as the later of the two last events. -/
theorem getLast?_merge (sortedA : a.Pairwise fun x y => x.timestamp ≤ y.timestamp)
    (sortedB : b.Pairwise fun x y => x.timestamp ≤ y.timestamp)
    (lastA : a.getLast? = some finalA) (lastB : b.getLast? = some finalB)
    (merge : both.Perm (a ++ b))
    (sorted : both.Pairwise fun x y => x.timestamp ≤ y.timestamp) :
    ∃ final, both.getLast? = some final ∧
      final.timestamp = max finalA.timestamp finalB.timestamp := by
  have memberA : finalA ∈ both :=
    merge.mem_iff.mpr (List.mem_append_left _ (List.mem_of_getLast? lastA))
  have memberB : finalB ∈ both :=
    merge.mem_iff.mpr (List.mem_append_right _ (List.mem_of_getLast? lastB))
  have last := List.getLast?_eq_some_getLast (List.ne_nil_of_mem memberA)
  refine ⟨_, last, Int.le_antisymm ?_ ?_⟩
  · rcases List.mem_append.mp (merge.mem_iff.mp (List.mem_of_getLast? last)) with h | h
    · exact Int.le_trans (le_final sortedA lastA _ h) (Int.le_max_left _ _)
    · exact Int.le_trans (le_final sortedB lastB _ h) (Int.le_max_right _ _)
  · exact Int.max_le.mpr ⟨le_final sorted last _ memberA, le_final sorted last _ memberB⟩

end Merge

/-- The grid up to the later of two ends is as long as the longer grid. -/
theorem gridSize_max {interval : Int} (positive : 0 < interval) (last later : Int) :
    gridSize interval (max last later) =
      max (gridSize interval last) (gridSize interval later) := by
  rcases Int.le_total last later with h | h
  · rw [Int.max_eq_right h, Nat.max_eq_right (gridSize_mono positive h)]
  · rw [Int.max_eq_left h, Nat.max_eq_left (gridSize_mono positive h)]

/-- The bounds of bins do not depend on the events in them. -/
theorem bounds_grid (interval last : Int) (events : List Event) :
    (grid interval last events).map Bin.bounds =
      ((List.range (gridSize interval last)).map (span interval last)).map Bin.bounds := by
  rw [grid, List.map_map, List.map_map]
  rfl

end Series

namespace AlignedSeries

open Series

/-! ### Weights -/

/-- The shorter series is filled up with nothing. -/
theorem map_first_pair (first second : List Bin) :
    (pair first second).map (·.2.1) =
      first.map Bin.weight ++ List.replicate (second.length - first.length) 0.0 := by
  fun_induction pair first second with
  | case1 => rfl
  | case2 a first ih => simpa using ih
  | case3 b second ih => simpa [List.replicate_succ] using ih
  | case4 a first b second ih => simpa using ih

theorem map_second_pair (first second : List Bin) :
    (pair first second).map (·.2.2) =
      second.map Bin.weight ++ List.replicate (first.length - second.length) 0.0 := by
  fun_induction pair first second with
  | case1 => rfl
  | case2 a first ih => simpa [List.replicate_succ] using ih
  | case3 b second ih => simpa using ih
  | case4 a first b second ih => simpa using ih

/-- Both series keep their weights; the shorter one is padded with zeros. -/
theorem ofSeries_weights {first second : Series} {aligned : AlignedSeries}
    (accepted : ofSeries first second = .ok aligned) :
    aligned.first = first.weights ++ List.replicate (second.size - first.size) 0.0 ∧
      aligned.second = second.weights ++ List.replicate (first.size - second.size) 0.0 := by
  rw [ofSeries] at accepted
  split at accepted
  · cases accepted
    exact ⟨map_first_pair _ _, map_second_pair _ _⟩
  · cases accepted

/-! ### A series without bins -/

theorem map_axis_pair_nil (bins : List Bin) : (pair bins []).map (·.1) = bins.map Bin.bare := by
  induction bins with
  | nil => rw [pair, List.map_nil, List.map_nil]
  | cons bin bins ih => rw [pair, List.map_cons, List.map_cons, ih, Bin.bare]

theorem map_axis_nil_pair (bins : List Bin) : (pair [] bins).map (·.1) = bins.map Bin.bare := by
  induction bins with
  | nil => rw [pair, List.map_nil, List.map_nil]
  | cons bin bins ih => rw [pair, List.map_cons, List.map_cons, ih, Bin.bare]

/-- A series without bins on the right leaves the axis and adds zeros. -/
theorem ofSeries_empty (series : Series) :
    ofSeries series (Series.empty series.interval) =
      .ok ⟨series.interval, series.bins.map Bin.bare, series.weights,
        List.replicate series.size 0.0⟩ := by
  simp only [ofSeries, Series.empty, if_true, map_axis_pair_nil, map_first_pair, map_second_pair]
  simp [weights, Series.size]

/-- A series without bins on the left leaves the axis and adds zeros. -/
theorem empty_ofSeries (series : Series) :
    ofSeries (Series.empty series.interval) series =
      .ok ⟨series.interval, series.bins.map Bin.bare, List.replicate series.size 0.0,
        series.weights⟩ := by
  simp only [ofSeries, Series.empty, if_true, map_axis_nil_pair, map_first_pair, map_second_pair]
  simp [weights, Series.size]

/-! ### The axis -/

/-- The bins follow one another from zero to `finish`, and none of them is empty. -/
structure Covers (axis : List Bin) (finish : Int) : Prop where
  begins : axis.head?.map Bin.start = some 0
  joined : ∀ (i : Nat) bin next, axis[i]? = some bin → axis[i + 1]? = some next →
    bin.finish = next.start
  ends : axis.getLast?.map Bin.finish = some finish
  proper : ∀ bin ∈ axis, bin.start < bin.finish

/-- The grid covers all times up to its last event. -/
theorem covers_grid {interval last : Int} (positive : 0 < interval) (natural : 0 ≤ last) :
    Covers ((List.range (gridSize interval last)).map (span interval last)) (last + 1) where
  begins := by
    rw [gridSize, List.range_succ_eq_map]
    simp [span]
  joined i bin next hbin hnext := by
    rw [List.getElem?_map, Option.map_eq_some_iff] at hbin hnext
    obtain ⟨j, hj, rfl⟩ := hbin
    obtain ⟨k, hk, rfl⟩ := hnext
    have place : ∀ {m n : Nat}, (List.range (gridSize interval last))[m]? = some n →
        m < gridSize interval last ∧ m = n := fun h => by
      obtain ⟨bound, eq⟩ := List.getElem?_eq_some_iff.mp h
      exact ⟨by simpa using bound, by simpa using eq⟩
    obtain ⟨-, rfl⟩ := place hj
    obtain ⟨inner, rfl⟩ := place hk
    rw [span_finish positive natural, if_pos inner, span]
    exact congrArg (· * interval) (Int.natCast_succ _).symm
  ends := by
    rw [gridSize, List.range_succ, List.map_append, List.map_singleton, List.getLast?_concat,
      Option.map_some, span_finish positive natural, gridSize, if_neg (Nat.lt_irrefl _)]
  proper bin hbin := by
    obtain ⟨i, hi, rfl⟩ := List.mem_map.mp hbin
    exact (span_inside positive natural (List.mem_range.mp hi)).2.1

theorem size_shared (interval last : Int) (first second : List Event) :
    (shared interval last first second).axis.length = gridSize interval last := by
  simp [shared]

/-- **Two series share the axis of all their events.** Two lists of events that have series align,
and the bins of the axis start and end where those of any sorted merge of the two lists do. So the
axis runs from zero to right after the later of the two last events, without a gap, and it is as
long as the longer series. Each series keeps its weights and is padded with zeros only. With the
series exchanged the axis is the same and the weights are exchanged, and next to a series without
bins either of them keeps its axis. -/
theorem ofSeries_shares_axis (a b both : List Event) (interval : Int) (positive : 0 < interval)
    {first second : Series} (hfirst : ofEvents a interval = .ok first)
    (hsecond : ofEvents b interval = .ok second) (merge : both.Perm (a ++ b))
    (sorted : both.Pairwise fun x y => x.timestamp ≤ y.timestamp) :
    ∃ finalA finalB merged aligned,
      a.getLast? = some finalA ∧ b.getLast? = some finalB ∧
      ofEvents both interval = .ok merged ∧ ofSeries first second = .ok aligned ∧
      aligned.interval = interval ∧
      aligned.axis.map Bin.bounds = merged.bins.map Bin.bounds ∧
      Covers aligned.axis (max finalA.timestamp finalB.timestamp + 1) ∧
      aligned.axis.length = max first.size second.size ∧
      aligned.first.length = max first.size second.size ∧
      aligned.second.length = max first.size second.size ∧
      aligned.first = first.weights ++ List.replicate (second.size - first.size) 0.0 ∧
      aligned.second = second.weights ++ List.replicate (first.size - second.size) 0.0 ∧
      ofSeries second first =
        .ok { aligned with first := aligned.second, second := aligned.first } ∧
      ∀ series ∈ [first, second],
        ofSeries series (Series.empty interval) =
          .ok ⟨interval, series.bins.map Bin.bare, series.weights,
            List.replicate series.size 0.0⟩ ∧
        ofSeries (Series.empty interval) series =
          .ok ⟨interval, series.bins.map Bin.bare, List.replicate series.size 0.0,
            series.weights⟩ := by
  obtain ⟨finalA, lastA, roomA, orderA, rfl⟩ := of_ofEvents_ok positive hfirst
  obtain ⟨finalB, lastB, roomB, orderB, rfl⟩ := of_ofEvents_ok positive hsecond
  obtain ⟨final, last, latest⟩ :=
    getLast?_merge orderA.sorted orderB.sorted lastA lastB merge sorted
  have naturalA := orderA.natural finalA (List.mem_of_getLast? lastA)
  have naturalB := orderB.natural finalB (List.mem_of_getLast? lastB)
  have insideA := le_final orderA.sorted lastA
  have insideB := le_final orderB.sorted lastB
  have room : Tick.InRange (final.timestamp + 1) := by
    rw [latest]
    rcases Int.le_total finalA.timestamp finalB.timestamp with h | h
    · rwa [Int.max_eq_right h]
    · rwa [Int.max_eq_left h]
  have merged := ofEvents_inOrder positive last room (inOrder_of_perm orderA orderB merge sorted)
  have aligned := ofSeries_grid positive naturalA naturalB insideA insideB
  have swapped := ofSeries_grid positive naturalB naturalA insideB insideA
  rw [Int.max_comm] at swapped
  rw [latest] at merged
  obtain ⟨hweightA, hweightB⟩ := ofSeries_weights aligned
  have natural : 0 ≤ max finalA.timestamp finalB.timestamp :=
    Int.le_trans naturalA (Int.le_max_left _ _)
  have size : (shared interval (max finalA.timestamp finalB.timestamp) a b).axis.length =
      max (gridSize interval finalA.timestamp) (gridSize interval finalB.timestamp) := by
    rw [size_shared, gridSize_max positive]
  simp only [Series.size, length_grid] at hweightA hweightB ⊢
  refine ⟨finalA, finalB, _, _, lastA, lastB, merged, aligned, rfl, ?_,
    covers_grid positive natural, size, ?_, ?_, hweightA, hweightB, swapped, ?_⟩
  · exact (bounds_grid _ _ _).symm
  · rw [← size]
    simp [shared]
  · rw [← size]
    simp [shared]
  · intro series hseries
    have same : series.interval = interval := by
      rcases List.mem_cons.mp hseries with rfl | hsecond
      · rfl
      · rw [List.mem_singleton.mp hsecond]
    subst same
    exact ⟨ofSeries_empty series, empty_ofSeries series⟩

/-- Events whose last bin, of ten units, is cut short after three of them. -/
def earlyEvents : List Event := [.count 0, .count 12]

/-- Events that reach two bins further. -/
def farEvents : List Event := [.count 3, .count 31]

/-- The early and the far events by time. -/
def allEvents : List Event := [.count 0, .count 3, .count 12, .count 31]

theorem ofSeries_shares_axis_uneven :
    allEvents.Perm (earlyEvents ++ farEvents) ∧
      (allEvents.Pairwise fun x y => x.timestamp ≤ y.timestamp) ∧
      ∃ first second merged aligned, ofEvents earlyEvents 10 = .ok first ∧
        ofEvents farEvents 10 = .ok second ∧ ofEvents allEvents 10 = .ok merged ∧
        ofSeries first second = .ok aligned ∧
        aligned.axis.map Bin.bounds = merged.bins.map Bin.bounds ∧ Covers aligned.axis 32 := by
  have merge : allEvents.Perm (earlyEvents ++ farEvents) := (List.Perm.swap _ _ _).cons _
  have sorted : allEvents.Pairwise fun x y => x.timestamp ≤ y.timestamp := by
    simp [allEvents, Event.count]
  have early : InOrder 0 earlyEvents := by constructor <;> simp [earlyEvents, Event.count]
  have far : InOrder 0 farEvents := by constructor <;> simp [farEvents, Event.count]
  have first := ofEvents_inOrder (show (0 : Int) < 10 by decide) rfl (by decide) early
  have second := ofEvents_inOrder (show (0 : Int) < 10 by decide) rfl (by decide) far
  obtain ⟨finalA, finalB, merged, aligned, lastA, lastB, hmerged, haligned, -, bounds, covers, -⟩ :=
    ofSeries_shares_axis earlyEvents farEvents allEvents 10 (by decide) first second merge sorted
  obtain rfl := Option.some.inj lastA
  obtain rfl := Option.some.inj lastB
  exact ⟨merge, sorted, _, _, merged, aligned, first, second, hmerged, haligned, bounds, covers⟩

end AlignedSeries

end GridReport
