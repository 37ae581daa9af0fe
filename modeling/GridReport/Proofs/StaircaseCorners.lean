import GridReport.Curves
import GridReport.Proofs.WholeDoubles
import Mathlib.Data.List.Basic

/-!
The corners of a staircase through points.

The staircase is drawn by a loop over the points that looks back from each point to the one before
it. Every second corner is a point, and the corners between them are where a level step ends.

* `extend_steps`, `foldlM_extend` — one round of the loop, and all of it.
* `getElem?_steps_even`, `getElem?_steps_odd` — which corner stands where.
* `steps_keeps_points` — the corners, the steps between them, and how much of the points is kept.
* `steps_rounds_times` — times that are too long for a double.
-/

namespace GridReport

namespace Curve

/-! ### The loop over positions -/

/-- One more point adds a corner below it and a corner at it. -/
theorem stepsAfter_concat (value : Float) (points : Curve) (last point : Int × Float) :
    stepsAfter value (points ++ [last, point]) = stepsAfter value (points ++ [last]) ++
      [(Float.ofInt point.1, last.2), (Float.ofInt point.1, point.2)] := by
  induction points generalizing value with
  | nil => rfl
  | cons first points ih => exact congrArg (_ :: _ :: ·) (ih first.2)

/-- A further point adds a level step to its time, and one up or down to its value. -/
theorem steps_concat (points : Curve) (last point : Int × Float) :
    steps (points ++ [last, point]) = steps (points ++ [last]) ++
      [(Float.ofInt point.1, last.2), (Float.ofInt point.1, point.2)] := by
  cases points with
  | nil => rfl
  | cons first points => exact congrArg (_ :: ·) (stepsAfter_concat first.2 points last point)

/-- The value before a point is that of the point in front of it. -/
theorem valueBefore_eq (front after : Curve) (last : Int × Float) :
    valueBefore (front ++ last :: after) (front.length + 1) = .ok last.2 := by
  have found : (front ++ last :: after)[front.length + 1 - 1]? = some last := by simp
  rw [valueBefore, if_neg (Nat.succ_ne_zero _), found]

/-- **One round of the loop.** The line up to a point grows to the line up to the next one. -/
theorem extend_steps (before after : Curve) (point : Int × Float) :
    extend (before ++ point :: after) (steps before) (point, before.length) =
      .ok (steps (before ++ [point])) := by
  rcases List.eq_nil_or_concat' before with rfl | ⟨front, last, rfl⟩
  · rfl
  · have found := valueBefore_eq front (point :: after) last
    rw [List.append_assoc, List.append_assoc, List.length_append, List.length_singleton, extend]
    dsimp only [List.singleton_append]
    rw [if_pos (Nat.succ_pos _), found, steps_concat]
    exact congrArg Except.ok (List.append_assoc _ _ _)

/-- **The rounds that are left.** From the line up to some point they make the whole line. -/
theorem foldlM_extend (before after : Curve) :
    (after.zipIdx before.length).foldlM (extend (before ++ after)) (steps before) =
      .ok (steps (before ++ after)) := by
  induction after generalizing before with
  | nil => rw [List.append_nil]; rfl
  | cons point after ih =>
      have rest := ih (before ++ [point])
      rw [List.length_append, List.length_singleton, List.append_assoc, List.singleton_append]
        at rest
      rw [List.zipIdx_cons, List.foldlM_cons, extend_steps]
      exact rest

/-- The loop always ends, with the corners in their order. -/
theorem trace_eq (points : Curve) : trace points = .ok (steps points) := foldlM_extend [] points

/-! ### Positions -/

/-- The items at the even positions. -/
def evenPositions {α : Type} : List α → List α
  | [] => []
  | [item] => [item]
  | item :: _ :: rest => item :: evenPositions rest

theorem getElem?_evenPositions {α : Type} (items : List α) (i : Nat) :
    (evenPositions items)[i]? = items[2 * i]? := by
  induction items using evenPositions.induct generalizing i with
  | case1 => rfl
  | case2 item =>
      cases i with
      | zero => rfl
      | succ i => rfl
  | case3 item other rest ih =>
      cases i with
      | zero => rfl
      | succ i => exact ih i

theorem length_stepsAfter (value : Float) (points : Curve) :
    (stepsAfter value points).length = 2 * points.length := by
  induction points generalizing value with
  | nil => rfl
  | cons point points ih =>
      have rest := ih point.2
      simp only [stepsAfter, List.length_cons, rest]
      omega

/-- Each point is reached at the value before it. -/
theorem getElem?_stepsAfter (value : Float) (points : Curve) (i : Nat) (h : i < points.length) :
    (stepsAfter value points)[2 * i]? =
      (value :: points.map Prod.snd)[i]?.map (fun held => (Float.ofInt points[i].1, held)) ∧
    (stepsAfter value points)[2 * i + 1]? = some (Float.ofInt points[i].1, points[i].2) := by
  induction points generalizing value i with
  | nil => exact absurd h (Nat.not_lt_zero i)
  | cons point points ih =>
      cases i with
      | zero => exact ⟨rfl, rfl⟩
      | succ i => exact ih point.2 i (Nat.lt_of_succ_lt_succ h)

section Corners

variable {points : Curve}

/-- All points but the first have two corners. -/
theorem length_steps (some_point : points ≠ []) :
    (steps points).length = 2 * points.length - 1 := by
  obtain ⟨point, rest, rfl⟩ := List.exists_cons_of_ne_nil some_point
  simp only [steps, List.length_cons, length_stepsAfter]
  omega

/-- The points are the corners at the even positions. -/
theorem getElem?_steps_even (i : Nat) (h : i < points.length) :
    (steps points)[2 * i]? = some (Float.ofInt points[i].1, points[i].2) := by
  cases points with
  | nil => exact absurd h (Nat.not_lt_zero i)
  | cons point points =>
      cases i with
      | zero => rfl
      | succ i => exact (getElem?_stepsAfter point.2 points i (Nat.lt_of_succ_lt_succ h)).2

/-- Each of the others has the time of the point after it and the value of the point before it. -/
theorem getElem?_steps_odd (i : Nat) (h : i + 1 < points.length) :
    (steps points)[2 * i + 1]? = some (Float.ofInt points[i + 1].1, points[i].2) := by
  cases points with
  | nil => exact absurd h (Nat.not_lt_zero _)
  | cons point points =>
      have corner := (getElem?_stepsAfter point.2 points i (Nat.lt_of_succ_lt_succ h)).1
      cases i with
      | zero => exact corner
      | succ i =>
          have inside : i < points.length := Nat.lt_of_succ_lt (Nat.lt_of_succ_lt_succ h)
          rw [List.getElem?_cons_succ, List.getElem?_map, List.getElem?_eq_getElem inside] at corner
          exact corner

theorem lt_length_of_steps {i : Nat} {corner : Float × Float}
    (found : (steps points)[i]? = some corner) : i + 1 < 2 * points.length := by
  obtain ⟨inside, -⟩ := List.getElem?_eq_some_iff.mp found
  have some_point : points ≠ [] := by
    rintro rfl
    exact absurd inside (Nat.not_lt_zero i)
  rw [length_steps some_point] at inside
  omega

/-- The steps are level and upright in turn. -/
theorem steps_turn (i : Nat) (start finish : Float × Float)
    (here : (steps points)[i]? = some start) (next : (steps points)[i + 1]? = some finish) :
    (i % 2 = 0 → start.2 = finish.2) ∧ (i % 2 = 1 → start.1 = finish.1) := by
  have inside := lt_length_of_steps next
  constructor
  · intro even
    obtain ⟨k, rfl⟩ : ∃ k, i = 2 * k := ⟨i / 2, by omega⟩
    rw [getElem?_steps_even k (by omega)] at here
    rw [getElem?_steps_odd k (by omega)] at next
    rw [← Option.some.inj here, ← Option.some.inj next]
  · intro odd
    obtain ⟨k, rfl⟩ : ∃ k, i = 2 * k + 1 := ⟨i / 2, by omega⟩
    rw [getElem?_steps_odd k (by omega)] at here
    rw [show 2 * k + 1 + 1 = 2 * (k + 1) by omega, getElem?_steps_even (k + 1) (by omega)] at next
    rw [← Option.some.inj here, ← Option.some.inj next]

/-- Every second corner is a point, so the points of the plain line are all there. -/
theorem evenPositions_steps (points : Curve) : evenPositions (steps points) = line points := by
  apply List.ext_getElem?
  intro i
  rw [getElem?_evenPositions, line, List.getElem?_map]
  by_cases inside : i < points.length
  · rw [getElem?_steps_even i inside, List.getElem?_eq_getElem inside]
    rfl
  · have outside : (steps points)[2 * i]? = none := by
      cases found : (steps points)[2 * i]? with
      | none => rfl
      | some corner => exact absurd (lt_length_of_steps found) (by omega)
    rw [outside, List.getElem?_eq_none (by omega)]
    rfl

/-- What a corner tells exactly: its time, if that is a finite number, and its value. -/
def toldPoint (corner : Float × Float) : Option ℚ × Float :=
  (ExactDouble.value? corner.1, corner.2)

/-- The points are told exactly by the line through them where their times have few bits. -/
theorem toldPoint_line_iff (inRange : ∀ point ∈ points, Tick.InRange point.1) :
    (line points).map toldPoint = points.map (fun point => (some (point.1 : ℚ), point.2)) ↔
      ∀ point ∈ points, ExactDouble.FewBits point.1.natAbs := by
  rw [line, List.map_map, List.map_inj_left]
  constructor
  · intro told point here
    exact (ExactDouble.value_ofInt_iff (inRange point here)).mp (Prod.mk.inj (told point here)).1
  · intro few point here
    exact Prod.ext ((ExactDouble.value_ofInt_iff (inRange point here)).mpr (few point here)) rfl

end Corners

/-- **A staircase keeps its points.** The loop never looks back from the first point, nor past the
last one. Through no point there is no staircase. Through `n` points it has `2 * n - 1` corners: the
points stand at the even positions, and between two of them a corner with the time of the later and
the value of the earlier one. So the steps are level and upright in turn. The corners at the even
positions are the line through the points themselves. They tell the exact times just where all
times, as integers of 64 bits, have no more than 53 significant bits. -/
theorem steps_keeps_points (points : Curve) :
    trace points = .ok (steps points) ∧
    (points = [] → steps points = []) ∧
    (points ≠ [] → (steps points).length = 2 * points.length - 1) ∧
    (∀ i (h : i < points.length),
      (steps points)[2 * i]? = some (Float.ofInt points[i].1, points[i].2)) ∧
    (∀ i (h : i + 1 < points.length),
      (steps points)[2 * i + 1]? = some (Float.ofInt points[i + 1].1, points[i].2)) ∧
    (∀ i start finish, (steps points)[i]? = some start → (steps points)[i + 1]? = some finish →
      (i % 2 = 0 → start.2 = finish.2) ∧ (i % 2 = 1 → start.1 = finish.1)) ∧
    evenPositions (steps points) = line points ∧
    ((∀ point ∈ points, Tick.InRange point.1) →
      ((evenPositions (steps points)).map toldPoint =
          points.map (fun point => (some (point.1 : ℚ), point.2)) ↔
        ∀ point ∈ points, ExactDouble.FewBits point.1.natAbs)) := by
  refine ⟨trace_eq points, ?_, length_steps, getElem?_steps_even, getElem?_steps_odd, steps_turn,
    evenPositions_steps points, ?_⟩
  · rintro rfl
    rfl
  · intro inRange
    rw [evenPositions_steps]
    exact toldPoint_line_iff inRange

/-- Points of one time, and one before the others. -/
def unsortedPoints : Curve := [(60, 2.0), (60, 1.0), (-30, 4.0)]

theorem steps_keeps_points_unsorted :
    trace unsortedPoints = .ok (steps unsortedPoints) ∧
      (steps unsortedPoints).length = 5 ∧
      (steps unsortedPoints)[3]? = some (Float.ofInt (-30), 1.0) ∧
      (evenPositions (steps unsortedPoints)).map toldPoint =
        [(some 60, 2.0), (some 60, 1.0), (some (-30), 4.0)] := by
  obtain ⟨traced, -, length, -, between, -, -, told⟩ := steps_keeps_points unsortedPoints
  refine ⟨traced, length (by simp [unsortedPoints]), between 1 (by decide), ?_⟩
  rw [(told (by decide)).mpr]
  · simp [unsortedPoints]
  · intro point here
    apply ExactDouble.fewBits_of_lt
    revert point here
    decide

/-- Points at times beyond `2 ^ 53`; that of the second one is odd. -/
def latePoints : Curve := [(9007199254740992, 1.0), (9007199254741493, 2.0),
  (9007199254741992, 3.0)]

/-- The corner of a point at a late odd time stands at an even time. The staircase is that of other
points, so nothing that is read off it tells the points. -/
theorem steps_rounds_times :
    (∀ point ∈ latePoints, Tick.InRange point.1) ∧
      latePoints[1]? = some (9007199254741493, 2.0) ∧
      (steps latePoints)[2]?.map toldPoint = some (some 9007199254741492, 2.0) ∧
      ∃ others, others ≠ latePoints ∧ steps others = steps latePoints := by
  have rounded : Float.ofInt 9007199254741493 = Float.ofInt 9007199254741492 := rfl
  have told : ExactDouble.value? (Float.ofInt 9007199254741492) = some 9007199254741492 :=
    (ExactDouble.value_ofInt_iff (by decide)).mpr ⟨2251799813685373, 2, by decide, by decide⟩
  refine ⟨by decide, rfl, ?_, [(9007199254740992, 1.0), (9007199254741492, 2.0),
    (9007199254741992, 3.0)], ?_, ?_⟩
  · change some (toldPoint (Float.ofInt 9007199254741493, 2.0)) = _
    rw [toldPoint, rounded, told]
  · simp [latePoints]
  · simp only [latePoints, steps, stepsAfter, rounded]

end Curve

end GridReport
