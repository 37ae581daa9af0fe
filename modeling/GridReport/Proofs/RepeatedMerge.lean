import GridReport.Proofs.RateMerge

/-!
Merges one after the other.

A merge reads a region by its name and its SKU only, and it changes neither. So a second merge sees
what the first one saw.

* `mergeRegion_again`, `mergeRates_again` — merging twice from one index is merging once.
* `mergeRegion_union`, `mergeRates_union` — merging from two indexes that share no SKU is merging
  once from both together.
* `mergeRates_repeats` — both statements.
-/

namespace GridReport.Sku

/-! ### One region -/

/-- A merge cannot tell the regions apart. -/
structure Alike (region other : Json) : Prop where
  sku : other.textField? "skuId" = region.textField? "skuId"
  name : regionName other = regionName region

section Region

variable {skus : Index} {region after : Json} {outcome : Outcome} {id : String}

/-- A region with the rates set has the name and the SKU that it had. -/
theorem alike_applyRates (region : Json) (rates : Option (List Json)) :
    Alike region (applyRates region rates).1 := by
  unfold applyRates
  split
  · rename_i tiers fields
    have other_field : ∀ key : String, key ≠ "tieredRates" →
        (Json.object (Json.setField "tieredRates" (.list tiers) fields)).textField? key =
          (Json.object fields).textField? key := by
      intro key hkey
      simp only [Json.textField?, Json.field?, Json.fields?, Option.bind_some,
        Json.lookup_setField, if_neg hkey]
    constructor
    · exact other_field "skuId" (by decide)
    · unfold regionName
      rw [other_field "name" (by decide)]
  · exact ⟨rfl, rfl⟩

/-- Setting the rates again changes nothing and has the same outcome. -/
theorem applyRates_again (region : Json) (rates : Option (List Json)) :
    applyRates (applyRates region rates).1 rates = applyRates region rates := by
  have named := (alike_applyRates region rates).name
  cases rates with
  | none => rfl
  | some tiers =>
      cases region with
      | object fields =>
          simp only [applyRates] at named ⊢
          rw [Json.setField_setField, named]
      | null | bool | int | real | text | list => rfl

/-- How a region with an SKU is merged hangs on what the index has for it. -/
theorem mergeRegion_eq (here : region.textField? "skuId" = some id) :
    mergeRegion skus region =
      match skus.lookup id with
      | none => .ok (region, .missingSku (regionName region) id)
      | some sku =>
        match (sku.itemsField? "pricingInfo").getD [] with
        | [pricing] => .ok (applyRates region (tieredRates? pricing))
        | others => .error (.pricing (.pricingEntries id others.length)) := by
  unfold mergeRegion
  split
  · rename_i none_there
    rw [here] at none_there
    cases none_there
  · rename_i found there
    rw [here] at there
    cases there
    rfl

/-- Only a region with an SKU is merged. -/
theorem sku_of_merged (merged : mergeRegion skus region = .ok (after, outcome)) :
    ∃ id, region.textField? "skuId" = some id := by
  cases here : region.textField? "skuId" with
  | none =>
      simp only [mergeRegion, here] at merged
      cases merged
  | some id => exact ⟨id, rfl⟩

/-- A merged region is left as it was if its SKU is not listed, and has the rates of its SKU set if
it is. -/
theorem merged_cases (merged : mergeRegion skus region = .ok (after, outcome)) :
    ∃ id, region.textField? "skuId" = some id ∧
      ((skus.lookup id = none ∧ after = region ∧ outcome = .missingSku (regionName region) id) ∨
        ∃ sku pricing, skus.lookup id = some sku ∧
          (sku.itemsField? "pricingInfo").getD [] = [pricing] ∧
          (after, outcome) = applyRates region (tieredRates? pricing)) := by
  obtain ⟨id, here⟩ := sku_of_merged merged
  rw [mergeRegion_eq here] at merged
  refine ⟨id, here, ?_⟩
  cases listed : skus.lookup id with
  | none =>
      rw [listed] at merged
      cases merged
      exact .inl ⟨rfl, rfl, rfl⟩
  | some sku =>
      rw [listed] at merged
      cases priced : (sku.itemsField? "pricingInfo").getD [] with
      | nil =>
          simp only [priced] at merged
          cases merged
      | cons pricing others =>
          cases others with
          | nil =>
              simp only [priced] at merged
              exact .inr ⟨sku, pricing, rfl, priced, (Except.ok.inj merged).symm⟩
          | cons second others =>
              simp only [priced] at merged
              cases merged

/-- A merge changes nothing that a later one looks at. -/
theorem alike_of_merged (merged : mergeRegion skus region = .ok (after, outcome)) :
    Alike region after := by
  obtain ⟨id, -, ⟨-, rfl, -⟩ | ⟨sku, pricing, -, -, applied⟩⟩ := merged_cases merged
  · exact ⟨rfl, rfl⟩
  · rw [show after = (applyRates region (tieredRates? pricing)).1 from congrArg Prod.fst applied]
    exact alike_applyRates region _

/-- A region whose id the index does not have is left as it is. -/
theorem mergeRegion_unlisted (here : region.textField? "skuId" = some id)
    (absent : skus.lookup id = none) :
    mergeRegion skus region = .ok (region, .missingSku (regionName region) id) := by
  rw [mergeRegion_eq here, absent]

/-- Otherwise it gets the rates of the document that has its id. -/
theorem mergeRegion_listed {sku pricing : Json} (here : region.textField? "skuId" = some id)
    (listed : skus.lookup id = some sku)
    (priced : (sku.itemsField? "pricingInfo").getD [] = [pricing]) :
    mergeRegion skus region = .ok (applyRates region (tieredRates? pricing)) := by
  rw [mergeRegion_eq here, listed]
  simp only [priced]

/-- A merged region stays as it is in a second merge, with the same outcome. -/
theorem mergeRegion_again (merged : mergeRegion skus region = .ok (after, outcome)) :
    mergeRegion skus after = .ok (after, outcome) := by
  have alike := alike_of_merged merged
  obtain ⟨id, here, ⟨absent, rfl, rfl⟩ | ⟨sku, pricing, listed, priced, applied⟩⟩ :=
    merged_cases merged
  · exact merged
  · rw [mergeRegion_listed (alike.sku.trans here) listed priced,
      show after = (applyRates region (tieredRates? pricing)).1 from congrArg Prod.fst applied,
      applyRates_again, ← applied]

end Region

/-! ### Two indexes -/

/-- No SKU is in both indexes. -/
def Apart (left right : Index) : Prop := ∀ id, left.lookup id = none ∨ right.lookup id = none

/-- The index has what the two have, and nothing else. -/
def Joins (left right union : Index) : Prop :=
  ∀ id, union.lookup id = (left.lookup id).or (right.lookup id)

theorem Apart.symm {left right : Index} (apart : Apart left right) : Apart right left :=
  fun id => (apart id).symm

theorem Joins.symm {left right union : Index} (joins : Joins left right union)
    (apart : Apart left right) : Joins right left union := by
  intro id
  rw [joins id]
  rcases apart id with absent | absent
  · rw [absent, Option.none_or, Option.or_none]
  · rw [absent, Option.none_or, Option.or_none]

section TwoIndexes

variable {left right union : Index}

/-- A region that both indexes merge is merged by one after the other as by both together. -/
theorem mergeRegion_union (apart : Apart left right) (joins : Joins left right union)
    {region after other : Json} {outcome elsewhere : Outcome}
    (merged : mergeRegion left region = .ok (after, outcome))
    (merges : mergeRegion right region = .ok (other, elsewhere)) :
    ∃ last second both, mergeRegion right after = .ok (last, second) ∧
      mergeRegion union region = .ok (last, both) := by
  have alike := alike_of_merged merged
  obtain ⟨id, here, ⟨absent, rfl, rfl⟩ | ⟨sku, pricing, listed, priced, applied⟩⟩ :=
    merged_cases merged
  · have same : union.lookup id = right.lookup id := by rw [joins id, absent, Option.none_or]
    refine ⟨other, elsewhere, elsewhere, merges, ?_⟩
    rw [mergeRegion_eq here, same, ← mergeRegion_eq here]
    exact merges
  · have absent : right.lookup id = none := by
      rcases apart id with nothing | nothing
      · rw [listed] at nothing
        cases nothing
      · exact nothing
    have found : union.lookup id = some sku := by rw [joins id, listed, Option.some_or]
    refine ⟨after, _, outcome, mergeRegion_unlisted (alike.sku.trans here) absent, ?_⟩
    rw [mergeRegion_listed here found priced, ← applied]

end TwoIndexes

/-! ### All regions -/

section Regions

variable {skus : Index} {region : Json} {rest : List Json}

/-- The others follow a region that is merged. -/
theorem mergeRates_cons_ok {after : Json} {outcome : Outcome}
    (merged : mergeRegion skus region = .ok (after, outcome)) :
    mergeRates skus (region :: rest) =
      ⟨after :: (mergeRates skus rest).regions, outcome :: (mergeRates skus rest).outcomes,
        (mergeRates skus rest).stopped⟩ := by
  simp only [mergeRates, merged]

/-- Nothing is merged behind a region that stops. -/
theorem mergeRates_cons_error {error : Error} (stops : mergeRegion skus region = .error error) :
    mergeRates skus (region :: rest) = ⟨region :: rest, [], some error⟩ := by
  simp only [mergeRates, stops]

/-- Merging twice is merging once, also where a region stops the merge. -/
theorem mergeRates_again (skus : Index) (regions : List Json) :
    mergeRates skus (mergeRates skus regions).regions = mergeRates skus regions := by
  induction regions with
  | nil => rfl
  | cons region rest ih =>
      cases merged : mergeRegion skus region with
      | error error =>
          rw [mergeRates_cons_error merged]
          exact mergeRates_cons_error merged
      | ok result =>
          obtain ⟨after, outcome⟩ := result
          rw [mergeRates_cons_ok merged, mergeRates_cons_ok (mergeRegion_again merged), ih]

/-- A merge that gets through merges the first region and gets through the others. -/
theorem merged_of_whole (whole : (mergeRates skus (region :: rest)).stopped = none) :
    (∃ after outcome, mergeRegion skus region = .ok (after, outcome)) ∧
      (mergeRates skus rest).stopped = none := by
  cases merged : mergeRegion skus region with
  | error error =>
      rw [mergeRates_cons_error merged] at whole
      cases whole
  | ok result =>
      obtain ⟨after, outcome⟩ := result
      rw [mergeRates_cons_ok merged] at whole
      exact ⟨⟨after, outcome, rfl⟩, whole⟩

/-- Merging from one index and then from the other is merging from both together. -/
theorem mergeRates_union {left right union : Index} (apart : Apart left right)
    (joins : Joins left right union) {regions : List Json}
    (left_whole : (mergeRates left regions).stopped = none)
    (right_whole : (mergeRates right regions).stopped = none) :
    (mergeRates union regions).stopped = none ∧
      (mergeRates right (mergeRates left regions).regions).stopped = none ∧
      (mergeRates right (mergeRates left regions).regions).regions =
        (mergeRates union regions).regions := by
  induction regions with
  | nil => exact ⟨rfl, rfl, rfl⟩
  | cons region rest ih =>
      obtain ⟨⟨after, outcome, merged⟩, left_rest⟩ := merged_of_whole left_whole
      obtain ⟨⟨other, elsewhere, merges⟩, right_rest⟩ := merged_of_whole right_whole
      obtain ⟨last, second, both, next, together⟩ := mergeRegion_union apart joins merged merges
      obtain ⟨union_whole, both_whole, same⟩ := ih left_rest right_rest
      rw [mergeRates_cons_ok merged, mergeRates_cons_ok next, mergeRates_cons_ok together]
      exact ⟨union_whole, both_whole, congrArg (last :: ·) same⟩

end Regions

/-- **Merges one after the other.** A second merge from the same index has the outcomes of the first
one, or is stopped by the same region with the same error, and leaves the regions as they are. If
two indexes share no SKU and each of them merges into the regions, then merging from one and then
from the other, in either order, gets through and gives the regions of one merge from both
together, with their fields in the same order. -/
theorem mergeRates_repeats (skus : Index) (regions : List Json) :
    (mergeRates skus (mergeRates skus regions).regions).report = (mergeRates skus regions).report ∧
      (mergeRates skus (mergeRates skus regions).regions).regions =
        (mergeRates skus regions).regions ∧
      ∀ left right union : Index, Apart left right → Joins left right union →
        (∃ report, (mergeRates left regions).report = .ok report) →
        (∃ report, (mergeRates right regions).report = .ok report) →
        (∃ report, (mergeRates right (mergeRates left regions).regions).report = .ok report) ∧
          (∃ report, (mergeRates left (mergeRates right regions).regions).report = .ok report) ∧
          (∃ report, (mergeRates union regions).report = .ok report) ∧
          (mergeRates right (mergeRates left regions).regions).regions =
            (mergeRates union regions).regions ∧
          (mergeRates left (mergeRates right regions).regions).regions =
            (mergeRates union regions).regions := by
  rw [mergeRates_again]
  refine ⟨rfl, rfl, ?_⟩
  intro left right union apart joins left_ok right_ok
  have whole_iff : ∀ merged : Merged,
      (∃ report, merged.report = .ok report) ↔ merged.stopped = none := by
    intro merged
    simp only [report_eq_ok_iff, exists_and_left, exists_eq', and_true]
  simp only [whole_iff] at left_ok right_ok ⊢
  obtain ⟨union_whole, forth_whole, forth⟩ := mergeRates_union apart joins left_ok right_ok
  obtain ⟨-, back_whole, back⟩ :=
    mergeRates_union apart.symm (joins.symm apart) right_ok left_ok
  exact ⟨forth_whole, back_whole, union_whole, forth, back⟩

/-- Rates for the SKU that the mixed index does not have. -/
def southIndex : Index :=
  [("C", .object [("pricingInfo", .list [.object [("pricingExpression",
      .object [("tieredRates", .list [.int 1, .int 2])])]])])]

theorem mergeRates_repeats_mixed :
    Apart mixedIndex southIndex ∧ Joins mixedIndex southIndex (mixedIndex ++ southIndex) ∧
      (mergeRates southIndex (mergeRates mixedIndex mixedRegions).regions).regions =
        (mergeRates (mixedIndex ++ southIndex) mixedRegions).regions ∧
      (mergeRates mixedIndex (mergeRates southIndex mixedRegions).regions).regions =
        [.object [("tieredRates", .list [.int 7]), ("name", .text "north"), ("skuId", .text "A")],
          .object [("skuId", .text "B")],
          .object [("name", .text "south"), ("skuId", .text "C"),
            ("tieredRates", .list [.int 1, .int 2])]] := by
  have apart : Apart mixedIndex southIndex := by
    intro id
    by_cases here : id = "C"
    · subst here
      exact .inl rfl
    · right
      rw [southIndex, Json.lookup_field, if_neg here]
      rfl
  have joins : Joins mixedIndex southIndex (mixedIndex ++ southIndex) :=
    fun id => List.lookup_append
  obtain ⟨-, -, both⟩ := mergeRates_repeats mixedIndex mixedRegions
  obtain ⟨-, -, -, forth, back⟩ :=
    both mixedIndex southIndex _ apart joins ⟨_, rfl⟩ ⟨_, rfl⟩
  refine ⟨apart, joins, forth, ?_⟩
  rw [back]
  rfl

end GridReport.Sku
