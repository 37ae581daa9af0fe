import GridReport.Proofs.Grid
import GridReport.Series.Align

/-!
Two grids on a shared axis.

The bins of both series stand at the same places, only the last bin of each may be cut short. So the
shared axis is the grid up to the later of the two ends, and under each of its bins both series have
what their events weigh in it; past the end of a series that is nothing.

* `getElem?_pair` — the pairing, read at one place.
* `pair_grid` — the pairing of two grids.
* `ofSeries_grid`, `ofSeries_grid_empty` — the alignment of two grids, and of a grid with a series
  without bins.
-/

namespace GridReport

namespace Series

variable {interval last later : Int} {events : List Event}

/-- The grid has a cell at each of its places, and nothing behind them. -/
theorem getElem?_grid (interval last : Int) (events : List Event) (i : Nat) :
    (grid interval last events)[i]? =
      if i < gridSize interval last then some (cell interval last events i) else none := by
  rw [grid, List.getElem?_map]
  split
  · rename_i h
    rw [List.getElem?_range h]
    rfl
  · rename_i h
    rw [List.getElem?_eq_none (by simpa using h)]
    rfl

/-- A grid up to a later event is no shorter. -/
theorem gridSize_mono (positive : 0 < interval) (h : last ≤ later) :
    gridSize interval last ≤ gridSize interval later := by
  have := Int.ediv_le_ediv positive h
  simp only [gridSize]
  omega

/-- A bin that is cut short less holds no more of events that end before the cut. -/
theorem slice_span_of_le (inside : ∀ event ∈ events, event.timestamp ≤ last) (h : last ≤ later)
    (i : Nat) : (span interval later i).slice events = (span interval last i).slice events := by
  refine List.filter_congr fun event hevent => ?_
  have hlast := inside event hevent
  have iff : event.timestamp < min ((i + 1) * interval) (later + 1) ↔
      event.timestamp < min ((i + 1) * interval) (last + 1) := by omega
  exact congrArg (decide (i * interval ≤ event.timestamp) && ·) (decide_eq_decide.mpr iff)

/-- Past the end of the events a bin holds nothing. -/
theorem slice_span_past (positive : 0 < interval) (natural : 0 ≤ last)
    (inside : ∀ event ∈ events, event.timestamp ≤ last) {i : Nat}
    (past : gridSize interval last ≤ i) : (span interval later i).slice events = [] := by
  have hstart : ¬ i * interval ≤ last := by
    rw [← lt_gridSize_iff positive natural]
    exact Nat.not_lt.mpr past
  refine List.eq_nil_iff_forall_not_mem.mpr fun event h => ?_
  obtain ⟨hevent, from_start, -⟩ := mem_slice.mp h
  exact hstart (Int.le_trans from_start (inside event hevent))

/-- The weight of a bin over events that end at `last`, on any grid that reaches as far. -/
theorem weight_on_later (positive : 0 < interval) (natural : 0 ≤ last)
    (inside : ∀ event ∈ events, event.timestamp ≤ last) (h : last ≤ later) (i : Nat) :
    sumFrom 0.0 ((span interval later i).slice events) =
      if i < gridSize interval last then (cell interval last events i).weight else 0.0 := by
  split
  · rw [slice_span_of_le inside h, cell]
  · rename_i past
    rw [slice_span_past positive natural inside (Nat.not_lt.mp past)]
    rfl

end Series

namespace AlignedSeries

open Series

/-! ### The pairing at one place -/

/-- The shared bin and the two weights, from what the two series have at one place. -/
def pairAt : Option Bin → Option Bin → Option (Bin × Float × Float)
  | none, none => none
  | some a, none => some (⟨a.start, a.finish, 0.0⟩, a.weight, 0.0)
  | none, some b => some (⟨b.start, b.finish, 0.0⟩, 0.0, b.weight)
  | some a, some b => some (⟨a.start, max a.finish b.finish, 0.0⟩, a.weight, b.weight)

/-- The pairs are made place by place. -/
theorem getElem?_pair (first second : List Bin) (i : Nat) :
    (pair first second)[i]? = pairAt first[i]? second[i]? := by
  fun_induction pair first second generalizing i with
  | case1 => rfl
  | case2 a first ih => cases i with
    | zero => rfl
    | succ i => exact ih i
  | case3 b second ih => cases i with
    | zero => rfl
    | succ i => exact ih i
  | case4 a first b second ih => cases i with
    | zero => rfl
    | succ i => exact ih i

/-! ### Two grids -/

/-- The grid up to `last` as an axis, with the weights that two lists of events have in its bins. -/
def shared (interval last : Int) (first second : List Event) : AlignedSeries where
  interval := interval
  axis := (List.range (gridSize interval last)).map (span interval last)
  first := (List.range (gridSize interval last)).map fun i =>
    sumFrom 0.0 ((span interval last i).slice first)
  second := (List.range (gridSize interval last)).map fun i =>
    sumFrom 0.0 ((span interval last i).slice second)

section Grids

variable {interval lastA lastB : Int} {a b : List Event}

/-- Two grids pair up to the grid that reaches as far as the longer one. -/
theorem pair_grid (positive : 0 < interval) (naturalA : 0 ≤ lastA) (naturalB : 0 ≤ lastB)
    (insideA : ∀ event ∈ a, event.timestamp ≤ lastA)
    (insideB : ∀ event ∈ b, event.timestamp ≤ lastB) :
    pair (grid interval lastA a) (grid interval lastB b) =
      (List.range (gridSize interval (max lastA lastB))).map fun i =>
        (span interval (max lastA lastB) i,
          sumFrom 0.0 ((span interval (max lastA lastB) i).slice a),
          sumFrom 0.0 ((span interval (max lastA lastB) i).slice b)) := by
  have size : gridSize interval (max lastA lastB) =
      max (gridSize interval lastA) (gridSize interval lastB) := by
    rcases Int.le_total lastA lastB with h | h
    · have := gridSize_mono positive h
      rw [Int.max_eq_right h]
      omega
    · have := gridSize_mono positive h
      rw [Int.max_eq_left h]
      omega
  refine List.ext_getElem? fun i => ?_
  rw [getElem?_pair, getElem?_grid, getElem?_grid, List.getElem?_map]
  by_cases hi : i < gridSize interval (max lastA lastB)
  · rw [List.getElem?_range hi, Option.map_some,
      weight_on_later positive naturalA insideA (Int.le_max_left _ _),
      weight_on_later positive naturalB insideB (Int.le_max_right _ _)]
    by_cases hA : i < gridSize interval lastA
    · by_cases hB : i < gridSize interval lastB
      · -- both have the bin: it ends at the later of the two ends
        have finish : max (span interval lastA i).finish (span interval lastB i).finish =
            (span interval (max lastA lastB) i).finish := by
          simp only [span]
          omega
        simp only [if_pos hA, if_pos hB]
        exact congrArg (fun finish => some (Bin.mk (i * interval) finish 0.0, _, _)) finish
      · have longer : max lastA lastB = lastA := Int.max_eq_left (Int.le_of_not_le fun h => by
          have := gridSize_mono positive h
          omega)
        simp only [if_pos hA, if_neg hB, longer]
        rfl
    · have hB : i < gridSize interval lastB := by omega
      have longer : max lastA lastB = lastB := Int.max_eq_right (Int.le_of_not_le fun h => by
        have := gridSize_mono positive h
        omega)
      simp only [if_neg hA, if_pos hB, longer]
      rfl
  · rw [if_neg (by omega), if_neg (by omega), List.getElem?_eq_none (by simpa using hi)]
    rfl

/-- The alignment of two grids. -/
theorem ofSeries_grid (positive : 0 < interval) (naturalA : 0 ≤ lastA) (naturalB : 0 ≤ lastB)
    (insideA : ∀ event ∈ a, event.timestamp ≤ lastA)
    (insideB : ∀ event ∈ b, event.timestamp ≤ lastB) :
    ofSeries ⟨interval, grid interval lastA a⟩ ⟨interval, grid interval lastB b⟩ =
      .ok (shared interval (max lastA lastB) a b) := by
  simp only [ofSeries, if_true, pair_grid positive naturalA naturalB insideA insideB, List.map_map]
  rfl

/-- Without bins on the other side the axis is the grid itself. -/
theorem pair_grid_nil (interval lastA : Int) (a : List Event) :
    pair (grid interval lastA a) [] =
      (List.range (gridSize interval lastA)).map fun i =>
        (span interval lastA i, sumFrom 0.0 ((span interval lastA i).slice a), 0.0) := by
  refine List.ext_getElem? fun i => ?_
  rw [getElem?_pair, getElem?_grid, List.getElem?_nil, List.getElem?_map]
  by_cases hi : i < gridSize interval lastA
  · rw [if_pos hi, List.getElem?_range hi]
    rfl
  · rw [if_neg hi, List.getElem?_eq_none (by simpa using hi)]
    rfl

/-- The alignment of a grid with a series without bins. -/
theorem ofSeries_grid_empty (interval lastA : Int) (a : List Event) :
    ofSeries ⟨interval, grid interval lastA a⟩ (Series.empty interval) =
      .ok (shared interval lastA a []) := by
  simp only [ofSeries, Series.empty, if_true, pair_grid_nil, List.map_map]
  rfl

end Grids

end AlignedSeries

end GridReport
