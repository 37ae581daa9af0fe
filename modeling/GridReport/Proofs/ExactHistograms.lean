import GridReport.Proofs.Tallies
import Mathlib.Data.Rat.Floor
import Mathlib.Tactic.FieldSimp
import Mathlib.Tactic.Linarith
import Mathlib.Tactic.Ring

/-!
Histograms in exact arithmetic.

The edges are computed from a width, and the bin of a value from a quotient by that width. Where
nothing is rounded the two agree: a value is counted between the edges that it lies between, and
the greatest value before the last edge.

* `binOf_eq_iff` — the quotient of a value is cut to the bin whose edges are on either side of it.
* `build_uniform` — the histogram of any rationals, whatever their order.
-/

namespace GridReport

/-- Rationals, with nothing rounded and nothing bounded. -/
instance : Measure ℚ where
  ofCount := Nat.cast
  half := 1 / 2
  add := (· + ·)
  sub := (· - ·)
  mul := (· * ·)
  div := (· / ·)
  least := min
  greatest := max
  same x y := x = y
  isFinite _ := true
  whole := Nat.floor

instance : Measure.Ordered ℚ where
  refl x _ := le_refl x
  trans _ _ _ _ _ _ := le_trans
  least_of_two x y _ _ := ⟨min_choice x y, min_le_left x y, min_le_right x y⟩
  greatest_of_two x y _ _ := ⟨max_choice x y, le_max_left x y, le_max_right x y⟩

namespace Histogram

variable {values : List ℚ} {low high : ℚ} {bins : ℕ}

/-! ### The range -/

/-- Values that are all the same get a range of width one around them. -/
theorem Ends.cases (ends : Ends values low high) :
    ∃ least ∈ values, ∃ greatest ∈ values,
      (∀ value ∈ values, least ≤ value ∧ value ≤ greatest) ∧
      (least = greatest ∧ low = least - 1 / 2 ∧ high = greatest + 1 / 2 ∨
        least < greatest ∧ low = least ∧ high = greatest) := by
  obtain ⟨least, here, greatest, there, between, range⟩ := ends
  refine ⟨least, here, greatest, there, between, ?_⟩
  split at range
  · next same => exact .inl ⟨of_decide_eq_true same, Prod.mk.inj range⟩
  · next differ =>
      have apart : least ≠ greatest := fun same => differ (decide_eq_true same)
      exact .inr ⟨lt_of_le_of_ne (between least here).2 apart, Prod.mk.inj range⟩

/-- The range is never empty. -/
theorem Ends.lt (ends : Ends values low high) : low < high := by
  obtain ⟨least, -, greatest, -, -, ⟨rfl, rfl, rfl⟩ | ⟨less, rfl, rfl⟩⟩ := ends.cases
  · linarith
  · exact less

/-- All values lie in it. -/
theorem Ends.bounds (ends : Ends values low high) {value : ℚ} (here : value ∈ values) :
    low ≤ value ∧ value ≤ high := by
  obtain ⟨least, -, greatest, -, between, ⟨rfl, rfl, rfl⟩ | ⟨-, rfl, rfl⟩⟩ := ends.cases
  · obtain ⟨above, below⟩ := between value here
    constructor
    · linarith
    · linarith
  · exact between value here

/-- The range depends on which values there are only. -/
theorem Ends.unique {others : List ℚ} {low' high' : ℚ} (ends : Ends values low high)
    (ends' : Ends others low' high') (same : ∀ value, value ∈ others ↔ value ∈ values) :
    low' = low ∧ high' = high := by
  obtain ⟨least, here, greatest, there, between, range⟩ := ends
  obtain ⟨least', here', greatest', there', between', range'⟩ := ends'
  have least_same : least' = least :=
    le_antisymm (between' least ((same least).mpr here)).1
      (between least' ((same least').mp here')).1
  have greatest_same : greatest' = greatest :=
    le_antisymm (between greatest' ((same greatest').mp there')).2
      (between' greatest ((same greatest).mpr there)).2
  rw [least_same, greatest_same, ← range] at range'
  exact Prod.mk.injEq .. ▸ range'

/-! ### Edges -/

/-- The place so many widths after the start of the range. The edges are those at whole numbers. -/
def place (low high : ℚ) (bins : ℕ) (x : ℚ) : ℚ := low + widthOf low high bins * x

theorem widthOf_eq : widthOf low high bins = (high - low) / bins := rfl

theorem widthOf_pos (apart : low < high) (positive : 0 < bins) : 0 < widthOf low high bins :=
  div_pos (sub_pos.mpr apart) (Nat.cast_pos.mpr positive)

theorem place_zero : place low high bins 0 = low := by simp [place]

/-- The last edge is the upper end itself. -/
theorem place_bins (positive : 0 < bins) : place low high bins bins = high := by
  have nonzero : (bins : ℚ) ≠ 0 := Nat.cast_ne_zero.mpr positive.ne'
  rw [place, widthOf_eq, div_mul_cancel₀ _ nonzero, add_sub_cancel]

/-- Edges are equally far apart. -/
theorem place_succ (x : ℚ) :
    place low high bins (x + 1) - place low high bins x = (high - low) / bins := by
  rw [place, place, widthOf_eq]
  ring

theorem place_strictMono (apart : low < high) (positive : 0 < bins) :
    StrictMono (place low high bins) := fun _ _ less =>
  add_lt_add_right (mul_lt_mul_of_pos_left less (widthOf_pos apart positive)) low

/-- A value lies its quotient of widths after the start of the range. -/
theorem place_quotient (apart : low < high) (positive : 0 < bins) (value : ℚ) :
    place low high bins ((value - low) / widthOf low high bins) = value := by
  rw [place, mul_div_cancel₀ _ (widthOf_pos apart positive).ne', add_sub_cancel]

/-- Each edge is worked out from the lower end, not from the edge in front of it. -/
theorem edgesOf_eq (positive : 0 < bins) :
    edgesOf low high (widthOf low high bins) bins =
      (List.range (bins + 1)).map fun i : ℕ => place low high bins i := by
  rw [List.range_succ, List.map_append, List.map_singleton, place_bins positive]
  rfl

/-! ### Bins -/

/-- A quotient of no more than the number of bins is cut to the bin it lies in, and to the last bin
if it is that number. -/
theorem min_floor_eq_iff {quotient : ℚ} (natural : 0 ≤ quotient) (small : quotient ≤ bins) {i : ℕ}
    (within : i < bins) :
    min ⌊quotient⌋₊ (bins - 1) = i ↔
      i ≤ quotient ∧ (quotient < i + 1 ∨ i + 1 = bins ∧ quotient = i + 1) := by
  rcases small.lt_or_eq with less | rfl
  · have inside : ⌊quotient⌋₊ < bins := (Nat.floor_lt natural).mpr less
    have not_last : ¬ (i + 1 = bins ∧ quotient = i + 1) := by
      rintro ⟨rfl, rfl⟩
      push_cast at less
      exact lt_irrefl _ less
    rw [min_eq_left (by omega), Nat.floor_eq_iff natural, or_iff_left not_last]
  · rw [Nat.floor_natCast]
    norm_cast
    omega

/-- A value of the range is in the bin whose edges it lies between, and the end of the range in the
last one. -/
theorem binOf_eq_iff (apart : low < high) (positive : 0 < bins) {value : ℚ}
    (range : low ≤ value ∧ value ≤ high) {i : ℕ} (within : i < bins) :
    binOf low (widthOf low high bins) bins value = i ↔
      place low high bins i ≤ value ∧ (value < place low high bins (i + 1) ∨
        i + 1 = bins ∧ value = place low high bins (i + 1)) := by
  have mono := place_strictMono apart positive
  have here := place_quotient apart positive value
  have cut : binOf low (widthOf low high bins) bins value =
      min ⌊(value - low) / widthOf low high bins⌋₊ (bins - 1) := rfl
  rw [cut]
  generalize (value - low) / widthOf low high bins = quotient at here ⊢
  have natural : 0 ≤ quotient := by
    rw [← mono.le_iff_le, place_zero, here]
    exact range.1
  have small : quotient ≤ bins := by
    rw [← mono.le_iff_le, place_bins positive, here]
    exact range.2
  -- The value and the edges are places, which compare as the numbers of widths do.
  rw [← here, mono.le_iff_le, mono.lt_iff_lt, mono.injective.eq_iff]
  exact min_floor_eq_iff natural small within

/-! ### The histogram -/

/-- A histogram with evenly spaced edges from `low` to `high` and the number of values between each
edge and the next. What lies on an edge is counted after it, but before the last one. -/
structure Uniform (values : List ℚ) (low high : ℚ) (bins : ℕ) (histogram : Histogram ℚ) :
    Prop where
  edges : histogram.edges.length = bins + 1
  first : histogram.edges.head? = some low
  last : histogram.edges.getLast? = some high
  ascending : histogram.edges.Pairwise (· < ·)
  spacing : ∀ i left right, histogram.edges[i]? = some left → histogram.edges[i + 1]? = some right →
    right - left = (high - low) / bins
  size : histogram.counts.length = bins
  counts : ∀ i left right, histogram.edges[i]? = some left → histogram.edges[i + 1]? = some right →
    histogram.counts[i]? =
      some (values.countP fun value => left ≤ value ∧
        (value < right ∨ i + 1 = bins ∧ value = right))

/-- The histogram between the ends counts each value in the bin that covers it. -/
theorem between_uniform (ends : Ends values low high) (positive : 0 < bins) :
    Uniform values low high bins (between values low high bins) := by
  have tallied := between_tallied positive values low high
  have edges : (between values low high bins).edges =
      (List.range (bins + 1)).map fun i : ℕ => place low high bins i := edgesOf_eq positive
  -- Two edges that follow one another are the places at a whole number and at the next one.
  have adjacent : ∀ i left right, (between values low high bins).edges[i]? = some left →
      (between values low high bins).edges[i + 1]? = some right →
        i < bins ∧ left = place low high bins i ∧ right = place low high bins (i + 1) := by
    intro i left right at_left at_right
    rw [edges] at at_left at_right
    obtain ⟨_, rfl⟩ := List.getElem?_eq_some_iff.mp at_left
    obtain ⟨within, rfl⟩ := List.getElem?_eq_some_iff.mp at_right
    rw [List.length_map, List.length_range, Nat.succ_lt_succ_iff] at within
    refine ⟨within, ?_, ?_⟩
    · simp
    · simp
  exact {
    edges := tallied.edges
    first := by simp [edges, List.range_succ_eq_map, place_zero]
    last := tallied.last
    ascending := by
      rw [edges, List.pairwise_map]
      exact List.pairwise_lt_range.imp fun less =>
        place_strictMono ends.lt positive (Nat.cast_lt.mpr less)
    spacing := by
      intro i left right at_left at_right
      obtain ⟨-, rfl, rfl⟩ := adjacent i left right at_left at_right
      exact place_succ _
    size := tallied.size
    counts := by
      intro i left right at_left at_right
      obtain ⟨within, rfl, rfl⟩ := adjacent i left right at_left at_right
      rw [tallied.counts i within, Option.some.injEq]
      refine List.countP_congr fun value here => ?_
      simp only [decide_eq_true_eq]
      exact binOf_eq_iff ends.lt positive (ends.bounds here) within }

theorem build_eq (some_value : values ≠ []) (positive : 0 < bins) :
    ∃ low high, Ends values low high ∧
      build values bins = .ok (between values low high bins) := by
  cases values with
  | nil => exact absurd rfl some_value
  | cons head tail =>
      have finite : (head :: tail).filter Measure.isFinite = head :: tail :=
        List.filter_eq_self.mpr fun _ _ => rfl
      exact ⟨_, _, bounds_ends fun _ _ => rfl, build_of_values positive finite⟩

/-- The order of the values does not matter. -/
theorem between_perm {others : List ℚ} (reordered : others.Perm values) :
    between others low high bins = between values low high bins := by
  simp only [between, countsOf_eq, reordered.countP_eq]

/-- Where nothing is rounded, every list of values has a histogram of any number of bins. It has
evenly spaced edges and counts the values between them, and the order of the values does not
matter. -/
theorem build_uniform (values : List ℚ) (bins : ℕ) (some_value : values ≠ [])
    (positive : 0 < bins) :
    ∃ low high histogram, Ends values low high ∧ low < high ∧
      build values bins = .ok histogram ∧ Uniform values low high bins histogram ∧
      ∀ others : List ℚ, others.Perm values → build others bins = .ok histogram := by
  obtain ⟨low, high, ends, built⟩ := build_eq some_value positive
  refine ⟨low, high, _, ends, ends.lt, built, between_uniform ends positive, ?_⟩
  intro others reordered
  have other_value : others ≠ [] := fun none =>
    some_value (List.nil_perm.mp (none ▸ reordered))
  obtain ⟨low', high', ends', built'⟩ := build_eq other_value positive
  obtain ⟨rfl, rfl⟩ := ends.unique ends' fun _ => reordered.mem_iff
  rw [built', between_perm reordered]

theorem build_uniform_halves :
    ∃ low high histogram, Ends [0, 1, 2, 4] low high ∧ low < high ∧
      build [0, 1, 2, 4] 2 = .ok histogram ∧ Uniform [0, 1, 2, 4] low high 2 histogram ∧
      build [4, 2, 1, 0] 2 = .ok histogram := by
  obtain ⟨low, high, histogram, ends, apart, built, uniform, same⟩ :=
    build_uniform [0, 1, 2, 4] 2 (List.cons_ne_nil _ _) Nat.two_pos
  exact ⟨low, high, histogram, ends, apart, built, uniform, same _ (List.reverse_perm [0, 1, 2, 4])⟩

example : (build [0, 1, 2, 4] 2).toOption.map (fun made => (made.edges, made.counts)) =
    some (([0, 2, 4] : List ℚ), [2, 2]) := by
  decide +kernel

example : (build [3, 3] 2).toOption.map (fun made => (made.edges, made.counts)) =
    some (([5 / 2, 3, 7 / 2] : List ℚ), [0, 2]) := by
  decide +kernel

end Histogram

end GridReport
