import GridReport.Curves
import GridReport.Proofs.Groups
import Mathlib.Data.List.Basic
import Mathlib.Data.String.Basic

/-!
What the running totals of samples show.

The samples of all keys come in one list. They are shared out by key, each key's share is sorted by
time and then summed up in place. So the curve of a key can only depend on what the samples of that
key are at each time and in which order they come there.

* `sortByTime_inTime`, `InTime.eq_of_ties` — sorting keeps ties in order, and with the ties in their
  order nothing else of the given order is left.
* `runningSum_runsThrough` — each point holds the sum of the values up to it.
* `cumulative_sums` — the curves of all keys, and when two lists of samples give a key one curve.
-/

namespace GridReport

namespace Curve

/-! ### The order of time -/

/-- The points of one time, in the order in which they come. -/
def pointsAt (points : Curve) (time : Int) : Curve := points.filter fun point => point.1 = time

/-- The same points in the order of time, and those of one time in the order in which they came. -/
structure InTime (points ordered : Curve) : Prop where
  perm : ordered.Perm points
  ascending : ordered.Pairwise fun a b => a.1 ≤ b.1
  ties : ∀ time, pointsAt ordered time = pointsAt points time

/-- Points are put in order of time, and ties keep theirs. -/
theorem sortByTime_inTime (points : Curve) : InTime points (sortByTime points) where
  perm := List.mergeSort_perm _ _
  ascending := Ascending.mergeSort_sorted Prod.fst (fun _ _ => decide_eq_true_iff) points
  ties := Ascending.filter_mergeSort Prod.fst (fun _ _ => decide_eq_true_iff) points

/-- Points are put into one order of time only, which their ties tell. -/
theorem InTime.eq_of_ties {points others ordered ordered' : Curve} (here : InTime points ordered)
    (there : InTime others ordered') (same : ∀ time, pointsAt points time = pointsAt others time) :
    ordered = ordered' := by
  apply Ascending.eq_of_filter_eq Prod.fst here.ascending there.ascending
  intro time
  exact (here.ties time).trans ((same time).trans (there.ties time).symm)

/-! ### Sums up to a point -/

/-- The curve goes through the points one by one, and shows at each of them the sum of the values up
to it: each is added on the right, from `total` on. -/
structure RunsThrough (total : Float) (ordered curve : Curve) : Prop where
  times : curve.map Prod.fst = ordered.map Prod.fst
  sums : ∀ i (h : i < curve.length),
    curve[i].2 = ((ordered.take (i + 1)).map Prod.snd).foldl (· + ·) total

/-- Each point gets the sum of the values up to it. -/
theorem runningSum_runsThrough (total : Float) (ordered : Curve) :
    RunsThrough total ordered (runningSum total ordered) := by
  induction ordered generalizing total with
  | nil => exact ⟨rfl, fun i h => absurd h (Nat.not_lt_zero i)⟩
  | cons point rest ih =>
      obtain ⟨time, value⟩ := point
      obtain ⟨times, sums⟩ := ih (total + value)
      constructor
      · simp [runningSum, times]
      · intro i h
        cases i with
        | zero => rfl
        | succ i =>
            have later := sums i (by simpa [runningSum] using h)
            simpa [runningSum] using later

end Curve

namespace Curves

open Curve

section Samples

variable {κ : Type} [LinearOrder κ]

/-- The samples of one key, in the order in which they come. -/
def samplesOf (samples : List (κ × Int × Float)) (key : κ) : Curve :=
  (samples.filter fun sample => sample.1 == key).map Prod.snd

/-- Each key has the running sum of its own samples. -/
theorem cumulative_eq (samples : List (κ × Int × Float)) :
    cumulative samples = (Keyed.keys (samples.map Prod.fst)).map fun key =>
      (key, Curve.cumulative (samplesOf samples key)) := by
  rw [cumulative, Keyed.group, List.map_map]
  rfl

theorem map_fst_cumulative (samples : List (κ × Int × Float)) :
    (cumulative samples).map Prod.fst = Keyed.keys (samples.map Prod.fst) := by
  rw [cumulative_eq, List.map_map]
  exact List.map_id _

/-- A key without samples is no key. -/
theorem samplesOf_eq_nil {samples : List (κ × Int × Float)} {key : κ} :
    samplesOf samples key = [] ↔ key ∉ Keyed.keys (samples.map Prod.fst) := by
  rw [Keyed.mem_keys, samplesOf, List.map_eq_nil_iff, List.filter_eq_nil_iff, List.mem_map]
  simp only [beq_iff_eq, not_exists, not_and]

/-- A key that occurs has the running sums of its samples, and any other key has no curve. -/
theorem lookup_cumulative (samples : List (κ × Int × Float)) (key : κ) :
    (cumulative samples).lookup key =
      if samplesOf samples key = [] then none
      else some (Curve.cumulative (samplesOf samples key)) := by
  rw [cumulative_eq]
  by_cases known : key ∈ Keyed.keys (samples.map Prod.fst)
  · rw [if_neg fun none_left => samplesOf_eq_nil.mp none_left known]
    exact List.lookup_graph _ known
  · rw [if_pos (samplesOf_eq_nil.mpr known)]
    rw [List.lookup_eq_none_iff]
    intro entry listed
    obtain ⟨other, here, rfl⟩ := List.mem_map.mp listed
    rw [bne_iff_ne]
    rintro rfl
    exact known here

/-- **What running totals show.** There is one curve for each key that occurs, in ascending order
of the keys. It has one point for each sample of its key, in the order of time and at equal times in
the order of the samples; each point holds the sum of the values up to it, added from the left to
zero. If two lists of samples give a key the same values at each time, in the same order, then the
key has the same curve in both, whatever else they hold and wherever these samples stand. -/
theorem cumulative_sums (samples : List (κ × Int × Float)) :
    ((cumulative samples).map Prod.fst).Pairwise (· < ·) ∧
    (∀ key, key ∈ (cumulative samples).map Prod.fst ↔ ∃ sample ∈ samples, sample.1 = key) ∧
    (∀ entry ∈ cumulative samples, ∃ ordered, InTime (samplesOf samples entry.1) ordered ∧
      entry.2.length = (samplesOf samples entry.1).length ∧ RunsThrough 0.0 ordered entry.2) ∧
    ∀ others key,
      (∀ time, pointsAt (samplesOf others key) time = pointsAt (samplesOf samples key) time) →
        (cumulative others).lookup key = (cumulative samples).lookup key := by
  rw [map_fst_cumulative]
  refine ⟨Keyed.keys_ascending _, ?_, ?_, ?_⟩
  · intro key
    rw [Keyed.mem_keys, List.mem_map]
  · intro entry listed
    rw [cumulative_eq] at listed
    obtain ⟨key, -, rfl⟩ := List.mem_map.mp listed
    have inTime := sortByTime_inTime (samplesOf samples key)
    have through := runningSum_runsThrough 0.0 (sortByTime (samplesOf samples key))
    refine ⟨_, inTime, ?_, through⟩
    have points := congrArg List.length through.times
    rw [List.length_map, List.length_map, inTime.perm.length_eq] at points
    exact points
  · intro others key same
    have ordered := (sortByTime_inTime (samplesOf others key)).eq_of_ties
      (sortByTime_inTime (samplesOf samples key)) same
    have curve : Curve.cumulative (samplesOf others key) =
        Curve.cumulative (samplesOf samples key) := by
      rw [Curve.cumulative, Curve.cumulative, ordered]
    have present : samplesOf others key = [] ↔ samplesOf samples key = [] := by
      have members := Ascending.mem_iff_of_filter_eq Prod.fst same
      simp only [List.eq_nil_iff_forall_not_mem, members]
    rw [lookup_cumulative, lookup_cumulative, curve]
    simp only [present]

end Samples

/-- Samples of two keys, with a tie. -/
def tiedSamples : List (String × Int × Float) :=
  [("a", 20, 2.0), ("b", 5, 1.0), ("a", 10, 3.0), ("a", 10, 4.0)]

/-- The samples of the first key in another order that keeps the tie, among others. -/
def mixedSamples : List (String × Int × Float) :=
  [("c", 1, 9.0), ("a", 10, 3.0), ("a", 20, 2.0), ("a", 10, 4.0)]

theorem cumulative_sums_mixed :
    (∀ time, pointsAt (samplesOf mixedSamples "a") time =
        pointsAt (samplesOf tiedSamples "a") time) ∧
      (cumulative mixedSamples).lookup "a" = (cumulative tiedSamples).lookup "a" := by
  have same : ∀ time, pointsAt (samplesOf mixedSamples "a") time =
      pointsAt (samplesOf tiedSamples "a") time := by
    intro time
    by_cases early : 10 = time
    · simp [mixedSamples, tiedSamples, samplesOf, pointsAt, ← early]
    · by_cases late : 20 = time
      · simp [mixedSamples, tiedSamples, samplesOf, pointsAt, ← late]
      · simp [mixedSamples, tiedSamples, samplesOf, pointsAt, early, late]
  obtain ⟨-, -, -, unchanged⟩ := cumulative_sums tiedSamples
  exact ⟨same, unchanged mixedSamples "a" same⟩

end Curves

end GridReport
