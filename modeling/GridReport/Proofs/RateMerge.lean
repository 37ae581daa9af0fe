import GridReport.Proofs.Documents
import GridReport.Sku.Merge
import Mathlib.Data.List.Forall2

/-!
What a merge of tiered rates does to a list of regions.

A region that does not stop the merge falls into exactly one of three classes, told from its SKU in
the index; the class says what becomes of the region and where it is reported.

* `mergeRegion_of_falls`, `mergeRegion_of_stops` — one region, by its class or by its error.
* `mergeRates_of_forall₂`, `mergeRates_stops` — all regions, and the first one that stops the merge.
* `ofOutcomes_eq` — the report as three selections from the outcomes.
* `mergeRates_accounts` — a merge that is not stopped accounts for every region.
-/

namespace GridReport.Sku

/-! ### Classes of regions -/

/-- The region is an object with the text `id` as its SKU. -/
def HasSku (region : Json) (id : String) : Prop :=
  ∃ fields, region = .object fields ∧ fields.lookup "skuId" = some (.text id)

/-- The SKU has one pricing entry and no other. -/
def HasPricing (sku pricing : Json) : Prop := sku.field? "pricingInfo" = some (.list [pricing])

/-- The pricing entry holds rates, at least one. -/
def HasRates (pricing : Json) (rates : List Json) : Prop :=
  ∃ expression, pricing.field? "pricingExpression" = some expression ∧
    expression.field? "tieredRates" = some (.list rates) ∧ rates ≠ []

/-- The region does not stop a merge: it has an SKU, and if the index has it too, the SKU there has
exactly one pricing entry. -/
def Mergeable (skus : Index) (region : Json) : Prop :=
  ∃ id, HasSku region id ∧ ∀ sku, skus.lookup id = some sku → ∃ pricing, HasPricing sku pricing

/-- What a merge finds out about a region. -/
inductive Class where
  | rated (rates : List Json)
  | unrated
  /-- The SKU with this id is not in the index. -/
  | unlisted (id : String)

/-- The region falls into the class. -/
inductive Falls (skus : Index) (region : Json) : Class → Prop where
  | rated {id : String} {sku pricing : Json} {rates : List Json} (here : HasSku region id)
      (listed : skus.lookup id = some sku) (priced : HasPricing sku pricing)
      (rates_at : HasRates pricing rates) : Falls skus region (.rated rates)
  | unrated {id : String} {sku pricing : Json} (here : HasSku region id)
      (listed : skus.lookup id = some sku) (priced : HasPricing sku pricing)
      (none_at : ∀ rates, ¬ HasRates pricing rates) : Falls skus region .unrated
  | unlisted {id : String} (here : HasSku region id) (absent : skus.lookup id = none) :
      Falls skus region (.unlisted id)

/-- What becomes of a region of a class. -/
inductive Becomes : Json × Class → Json → Prop where
  | rated {before after : List (String × Json)} {rates : List Json}
      (set : Json.Sets "tieredRates" (.list rates) before after) :
      Becomes (.object before, .rated rates) (.object after)
  | unrated {region : Json} : Becomes (region, .unrated) region
  | unlisted {region : Json} {id : String} : Becomes (region, .unlisted id) region

/-- The region is reported by this name. -/
def Named (region : Json) (name : String) : Prop :=
  region.field? "name" = some (.text name) ∨
    (∀ text, region.field? "name" ≠ some (.text text)) ∧ name = "<unnamed>"

/-- The outcome for a region of a class. -/
def outcomeOf : Json × Class → Outcome
  | (region, .rated rates) => .updated (regionName region) rates.length
  | (region, .unrated) => .withoutRates (regionName region)
  | (region, .unlisted id) => .missingSku (regionName region) id

/-- Why a region stops a merge. -/
inductive Stops (skus : Index) (region : Json) : Error → Prop where
  | noSku (absent : ∀ id, ¬ HasSku region id) :
      Stops skus region (.pricing (.regionWithoutSku (regionName region)))
  | entries {id : String} {sku : Json} (here : HasSku region id)
      (listed : skus.lookup id = some sku) (several : ∀ pricing, ¬ HasPricing sku pricing) :
      Stops skus region
        (.pricing (.pricingEntries id ((sku.itemsField? "pricingInfo").getD []).length))

theorem textField?_eq_some {document : Json} {key text : String} :
    document.textField? key = some text ↔ document.field? key = some (.text text) := by
  rw [Json.textField?, Option.bind_eq_some_iff]
  constructor
  · rintro ⟨value, hvalue, htext⟩
    cases value with
    | text _ =>
        cases htext
        exact hvalue
    | _ => cases htext
  · exact fun h => ⟨_, h, rfl⟩

theorem itemsField?_eq_some {document : Json} {key : String} {items : List Json} :
    document.itemsField? key = some items ↔ document.field? key = some (.list items) := by
  rw [Json.itemsField?, Option.bind_eq_some_iff]
  constructor
  · rintro ⟨value, hvalue, hitems⟩
    cases value with
    | list _ =>
        cases hitems
        exact hvalue
    | _ => cases hitems
  · exact fun h => ⟨_, h, rfl⟩

/-- The id of a region is a text at its key. -/
theorem hasSku_iff {region : Json} {id : String} :
    HasSku region id ↔ region.textField? "skuId" = some id := by
  rw [textField?_eq_some, HasSku]
  constructor
  · rintro ⟨fields, rfl, h⟩
    exact h
  · intro h
    cases region with
    | object fields => exact ⟨fields, rfl, h⟩
    | _ => cases h

/-- Prices count only where there is exactly one entry of them. -/
theorem hasPricing_iff {sku pricing : Json} :
    HasPricing sku pricing ↔ (sku.itemsField? "pricingInfo").getD [] = [pricing] := by
  rw [HasPricing, ← itemsField?_eq_some]
  cases sku.itemsField? "pricingInfo" <;> simp

theorem hasRates_iff {pricing : Json} {rates : List Json} :
    HasRates pricing rates ↔ tieredRates? pricing = some rates := by
  have found : (pricing.field? "pricingExpression").bind (·.itemsField? "tieredRates") =
      some rates ↔ ∃ expression, pricing.field? "pricingExpression" = some expression ∧
        expression.field? "tieredRates" = some (.list rates) := by
    simp only [Option.bind_eq_some_iff, itemsField?_eq_some]
  constructor
  · rintro ⟨expression, hexpression, hrates, some_rates⟩
    rw [tieredRates?, found.mpr ⟨expression, hexpression, hrates⟩]
    split
    · rename_i none_found
      cases none_found
      exact absurd rfl some_rates
    · rfl
  · intro h
    rw [tieredRates?] at h
    split at h
    · cases h
    · rename_i some_rates
      obtain ⟨expression, hexpression, hrates⟩ := found.mp h
      refine ⟨expression, hexpression, hrates, ?_⟩
      rintro rfl
      exact some_rates h

theorem named_regionName (region : Json) : Named region (regionName region) := by
  rw [Named, regionName]
  cases h : region.textField? "name" with
  | none =>
      refine .inr ⟨fun text htext => ?_, rfl⟩
      rw [textField?_eq_some.mpr htext] at h
      cases h
  | some name => exact .inl (textField?_eq_some.mp h)

section Region

variable {skus : Index} {region : Json}

/-- A region has one id at most. -/
theorem HasSku.unique {id id' : String} (h : HasSku region id) (h' : HasSku region id') :
    id = id' := by
  rw [hasSku_iff] at h h'
  exact Option.some.inj (h.symm.trans h')

/-- No region falls into two classes. -/
theorem Falls.unique {c c' : Class} (h : Falls skus region c) (h' : Falls skus region c') :
    c = c' := by
  have same_pricing : ∀ {id sku pricing id' sku' pricing'}, HasSku region id →
      skus.lookup id = some sku → HasPricing sku pricing → HasSku region id' →
      skus.lookup id' = some sku' → HasPricing sku' pricing' → pricing = pricing' := by
    intro id sku pricing id' sku' pricing' here listed priced here' listed' priced'
    obtain rfl := here.unique here'
    obtain rfl := Option.some.inj (listed.symm.trans listed')
    rw [hasPricing_iff] at priced priced'
    exact (List.cons.inj (priced.symm.trans priced')).1
  cases h with
  | rated here listed priced rates_at =>
      cases h' with
      | rated here' listed' priced' rates_at' =>
          obtain rfl := same_pricing here listed priced here' listed' priced'
          rw [hasRates_iff] at rates_at rates_at'
          exact congrArg Class.rated (Option.some.inj (rates_at.symm.trans rates_at'))
      | unrated here' listed' priced' none_at' =>
          obtain rfl := same_pricing here listed priced here' listed' priced'
          exact absurd rates_at (none_at' _)
      | unlisted here' absent' =>
          obtain rfl := here.unique here'
          cases listed.symm.trans absent'
  | unrated here listed priced none_at =>
      cases h' with
      | rated here' listed' priced' rates_at' =>
          obtain rfl := same_pricing here listed priced here' listed' priced'
          exact absurd rates_at' (none_at _)
      | unrated => rfl
      | unlisted here' absent' =>
          obtain rfl := here.unique here'
          cases listed.symm.trans absent'
  | unlisted here absent =>
      cases h' with
      | rated here' listed' =>
          obtain rfl := here.unique here'
          cases absent.symm.trans listed'
      | unrated here' listed' =>
          obtain rfl := here.unique here'
          cases absent.symm.trans listed'
      | unlisted here' => rw [here.unique here']

/-- The regions that fall into a class are those that do not stop a merge. -/
theorem mergeable_iff : Mergeable skus region ↔ ∃ c, Falls skus region c := by
  constructor
  · rintro ⟨id, here, onePricing⟩
    cases listed : skus.lookup id with
    | none => exact ⟨_, .unlisted here listed⟩
    | some sku =>
        obtain ⟨pricing, priced⟩ := onePricing sku listed
        cases hrates : tieredRates? pricing with
        | some rates => exact ⟨_, .rated here listed priced (hasRates_iff.mpr hrates)⟩
        | none =>
            refine ⟨_, .unrated here listed priced fun rates h => ?_⟩
            rw [hasRates_iff, hrates] at h
            cases h
  · rintro ⟨c, falls⟩
    cases falls with
    | rated here listed priced =>
        refine ⟨_, here, fun sku h => ?_⟩
        obtain rfl := Option.some.inj (listed.symm.trans h)
        exact ⟨_, priced⟩
    | unrated here listed priced =>
        refine ⟨_, here, fun sku h => ?_⟩
        obtain rfl := Option.some.inj (listed.symm.trans h)
        exact ⟨_, priced⟩
    | unlisted here absent => exact ⟨_, here, fun sku h => by cases absent.symm.trans h⟩

/-! ### One region -/

/-- A region of a class becomes what the class says. -/
theorem mergeRegion_of_falls {c : Class} (falls : Falls skus region c) :
    ∃ after, mergeRegion skus region = .ok (after, outcomeOf (region, c)) ∧
      Becomes (region, c) after := by
  cases falls with
  | rated here listed priced rates_at =>
      rename_i id sku pricing rates
      have hid := hasSku_iff.mp here
      obtain ⟨fields, rfl, -⟩ := here
      refine ⟨_, ?_, .rated (Json.sets_setField "tieredRates" (.list rates) fields)⟩
      simp only [mergeRegion, hid, listed, hasPricing_iff.mp priced, hasRates_iff.mp rates_at]
      rfl
  | unrated here listed priced none_at =>
      rename_i id sku pricing
      have hrates : tieredRates? pricing = none :=
        Option.eq_none_iff_forall_not_mem.mpr fun rates h => none_at rates (hasRates_iff.mpr h)
      refine ⟨_, ?_, .unrated⟩
      simp only [mergeRegion, hasSku_iff.mp here, listed, hasPricing_iff.mp priced, hrates]
      rfl
  | unlisted here absent =>
      refine ⟨_, ?_, .unlisted⟩
      simp only [mergeRegion, hasSku_iff.mp here, absent]
      rfl

/-- What stops a region is told. -/
theorem mergeRegion_of_stops {error : Error} (stops : Stops skus region error) :
    mergeRegion skus region = .error error := by
  cases stops with
  | noSku absent =>
      have hid : region.textField? "skuId" = none :=
        Option.eq_none_iff_forall_not_mem.mpr fun id h => absent id (hasSku_iff.mpr h)
      simp only [mergeRegion, hid]
  | entries here listed several =>
      rename_i id sku
      simp only [mergeRegion, hasSku_iff.mp here, listed]
      split
      · rename_i pricing priced
        exact absurd (hasPricing_iff.mpr priced) (several pricing)
      · rfl

/-- A region falls into a class or stops the merge. -/
theorem falls_or_stops (skus : Index) (region : Json) :
    (∃ c, Falls skus region c) ∨ ∃ error, Stops skus region error := by
  by_cases here : ∃ id, HasSku region id
  · obtain ⟨id, here⟩ := here
    by_cases onePricing : ∀ sku, skus.lookup id = some sku → ∃ pricing, HasPricing sku pricing
    · exact .inl (mergeable_iff.mp ⟨id, here, onePricing⟩)
    · push Not at onePricing
      obtain ⟨sku, listed, several⟩ := onePricing
      exact .inr ⟨_, .entries here listed several⟩
  · exact .inr ⟨_, .noSku (not_exists.mp here)⟩

/-- No region both stops and merges. -/
theorem not_mergeable_of_stops {error : Error} (stops : Stops skus region error) :
    ¬ Mergeable skus region := by
  intro mergeable
  obtain ⟨c, falls⟩ := mergeable_iff.mp mergeable
  obtain ⟨after, merged, -⟩ := mergeRegion_of_falls falls
  rw [mergeRegion_of_stops stops] at merged
  cases merged

end Region

/-! ### All regions -/

section Regions

variable {skus : Index} {regions : List Json} {classes : List Class}

/-- Regions that all fall into classes are all merged. -/
theorem mergeRates_of_forall₂ (falls : List.Forall₂ (Falls skus) regions classes) :
    List.Forall₂ Becomes (regions.zip classes) (mergeRates skus regions).regions ∧
      (mergeRates skus regions).outcomes = (regions.zip classes).map outcomeOf ∧
      (mergeRates skus regions).stopped = none := by
  induction falls with
  | nil => exact ⟨.nil, rfl, rfl⟩
  | cons here _ ih =>
      obtain ⟨after, merged, becomes⟩ := mergeRegion_of_falls here
      obtain ⟨hregions, houtcomes, hstopped⟩ := ih
      simp only [mergeRates, merged, List.zip_cons_cons, List.map_cons]
      exact ⟨.cons becomes hregions, congrArg _ houtcomes, hstopped⟩

/-- Regions that can all be merged fall into classes. -/
theorem exists_classes (mergeable : ∀ region ∈ regions, Mergeable skus region) :
    ∃ classes, List.Forall₂ (Falls skus) regions classes := by
  induction regions with
  | nil => exact ⟨[], .nil⟩
  | cons region rest ih =>
      obtain ⟨here, behind⟩ := List.forall_mem_cons.mp mergeable
      obtain ⟨c, falls⟩ := mergeable_iff.mp here
      obtain ⟨classes, all⟩ := ih behind
      exact ⟨c :: classes, .cons falls all⟩

/-- They do so in one way only. -/
theorem classes_unique {others : List Class} (falls : List.Forall₂ (Falls skus) regions classes)
    (fall : List.Forall₂ (Falls skus) regions others) : others = classes := by
  induction falls generalizing others with
  | nil => cases fall; rfl
  | cons here _ ih =>
      cases fall with
      | cons here' behind' => rw [here'.unique here, ih behind']

/-- A region that stops the merge leaves itself and the regions behind it as they were; the regions
in front of it are merged as if they were all. -/
theorem mergeRates_stops {front back : List Json} {region : Json} {error : Error}
    (mergeable : ∀ r ∈ front, Mergeable skus r) (stops : Stops skus region error) :
    mergeRates skus (front ++ region :: back) =
      ⟨(mergeRates skus front).regions ++ region :: back, (mergeRates skus front).outcomes,
        some error⟩ := by
  induction front with
  | nil => simp only [List.nil_append, mergeRates, mergeRegion_of_stops stops]
  | cons first front ih =>
      obtain ⟨here, behind⟩ := List.forall_mem_cons.mp mergeable
      obtain ⟨c, falls⟩ := mergeable_iff.mp here
      obtain ⟨after, merged, -⟩ := mergeRegion_of_falls falls
      simp only [List.cons_append, mergeRates, merged, ih behind]

/-- A list of regions falls into classes, or has a first region that stops the merge. -/
theorem mergeable_or_stops (skus : Index) (regions : List Json) :
    (∀ region ∈ regions, Mergeable skus region) ∨
      ∃ front region back error, regions = front ++ region :: back ∧
        (∀ r ∈ front, Mergeable skus r) ∧ Stops skus region error := by
  induction regions with
  | nil => exact .inl (List.forall_mem_nil _)
  | cons region rest ih =>
      rcases falls_or_stops skus region with falls | ⟨error, stops⟩
      · have here := mergeable_iff.mpr falls
        rcases ih with behind | ⟨front, region', back, error, rfl, before, stops⟩
        · exact .inl (List.forall_mem_cons.mpr ⟨here, behind⟩)
        · exact .inr ⟨region :: front, region', back, error, rfl,
            List.forall_mem_cons.mpr ⟨here, before⟩, stops⟩
      · exact .inr ⟨[], region, rest, error, rfl, List.forall_mem_nil _, stops⟩

/-- The merge is not stopped exactly if each region can be merged. -/
theorem mergeRates_stopped_iff :
    (mergeRates skus regions).stopped = none ↔ ∀ region ∈ regions, Mergeable skus region := by
  constructor
  · intro whole
    rcases mergeable_or_stops skus regions with
      all | ⟨front, region, back, error, rfl, before, stops⟩
    · exact all
    · rw [mergeRates_stops before stops] at whole
      cases whole
  · intro all
    obtain ⟨classes, falls⟩ := exists_classes all
    exact (mergeRates_of_forall₂ falls).2.2

theorem report_eq_ok_iff {merged : Merged} {report : MergeReport} :
    merged.report = .ok report ↔
      merged.stopped = none ∧ MergeReport.ofOutcomes merged.outcomes = report := by
  rw [Merged.report]
  cases merged.stopped <;> simp

theorem report_eq_error_iff {merged : Merged} {error : Error} :
    merged.report = .error error ↔ merged.stopped = some error := by
  rw [Merged.report]
  cases merged.stopped <;> simp

end Regions

/-! ### The report -/

/-- The entry of a region among the updated ones. -/
def updatedEntry? : Json × Class → Option (String × Nat)
  | (region, .rated rates) => some (regionName region, rates.length)
  | _ => none

/-- The entry of a region among those without rates. -/
def unratedEntry? : Json × Class → Option String
  | (region, .unrated) => some (regionName region)
  | _ => none

/-- The entry of a region among those whose SKU is missing. -/
def unlistedEntry? : Json × Class → Option String
  | (region, .unlisted _) => some (regionName region)
  | _ => none

/-- The report lists the regions by class, in their order. -/
theorem foldl_enter (report : MergeReport) (pairs : List (Json × Class)) :
    (pairs.map outcomeOf).foldl MergeReport.enter report =
      { updated := report.updated ++ pairs.filterMap updatedEntry?
        withoutRates := report.withoutRates ++ pairs.filterMap unratedEntry?
        missingSku := report.missingSku ++ pairs.filterMap unlistedEntry?
        written := report.written } := by
  induction pairs generalizing report with
  | nil => simp
  | cons pair pairs ih =>
      obtain ⟨region, c⟩ := pair
      rw [List.map_cons, List.foldl_cons, ih]
      cases c <;> simp [outcomeOf, MergeReport.enter, List.filterMap_cons, updatedEntry?,
        unratedEntry?, unlistedEntry?]

/-- The report lists the regions of each class in their order. -/
theorem ofOutcomes_eq (pairs : List (Json × Class)) :
    MergeReport.ofOutcomes (pairs.map outcomeOf) =
      ⟨pairs.filterMap updatedEntry?, pairs.filterMap unratedEntry?,
        pairs.filterMap unlistedEntry?, false⟩ := by
  rw [MergeReport.ofOutcomes, foldl_enter]
  simp [MergeReport.empty]

/-- **A merge accounts for every region.** It is not stopped exactly if every region is an object
with an SKU and each SKU that is in the index has one pricing entry. Then every region falls into
exactly one of three classes. One whose SKU has rates is given these rates and is otherwise as
before; the others are not changed. The report lists the names of the regions of each class in their
order, with the number of rates for the updated ones; a region without a name is `<unnamed>`. -/
theorem mergeRates_accounts (skus : Index) (regions : List Json) :
    ((∃ report, (mergeRates skus regions).report = .ok report) ↔
      ∀ region ∈ regions, Mergeable skus region) ∧
    (∀ report, (mergeRates skus regions).report = .ok report →
      (mergeRates skus regions).regions.length = regions.length ∧
      ∃ classes, List.Forall₂ (Falls skus) regions classes ∧
        (∀ others, List.Forall₂ (Falls skus) regions others → others = classes) ∧
        List.Forall₂ Becomes (regions.zip classes) (mergeRates skus regions).regions ∧
        report.updated = (regions.zip classes).filterMap updatedEntry? ∧
        report.withoutRates = (regions.zip classes).filterMap unratedEntry? ∧
        report.missingSku = (regions.zip classes).filterMap unlistedEntry?) ∧
    ∀ region, Named region (regionName region) := by
  refine ⟨?_, ?_, named_regionName⟩
  · rw [← mergeRates_stopped_iff]
    simp only [report_eq_ok_iff, exists_and_left, exists_eq', and_true]
  · intro report accepted
    obtain ⟨whole, rfl⟩ := report_eq_ok_iff.mp accepted
    obtain ⟨classes, falls⟩ := exists_classes (mergeRates_stopped_iff.mp whole)
    obtain ⟨becomes, outcomes, -⟩ := mergeRates_of_forall₂ falls
    have size : (regions.zip classes).length = regions.length := by
      rw [List.length_zip, falls.length_eq, Nat.min_self]
    rw [outcomes, ofOutcomes_eq]
    exact ⟨becomes.length_eq ▸ size, classes, falls, fun _ => classes_unique falls, becomes,
      rfl, rfl, rfl⟩

/-- An SKU with a rate, and one without. -/
def mixedIndex : Index :=
  [("A", .object [("pricingInfo", .list [.object [("pricingExpression",
      .object [("tieredRates", .list [.int 7])])]])]),
    ("B", .object [("pricingInfo", .list [.null])])]

/-- A region that has rates already, one without a name, and one with an SKU of its own. -/
def mixedRegions : List Json :=
  [.object [("tieredRates", .null), ("name", .text "north"), ("skuId", .text "A")],
    .object [("skuId", .text "B")],
    .object [("name", .text "south"), ("skuId", .text "C")]]

theorem mergeRates_accounts_mixed :
    ∃ report, (mergeRates mixedIndex mixedRegions).report = .ok report ∧
      (∀ region ∈ mixedRegions, Mergeable mixedIndex region) ∧
      report.updated = [("north", 1)] ∧ report.withoutRates = ["<unnamed>"] ∧
      report.missingSku = ["south"] ∧
      ∃ classes, List.Forall₂ (Falls mixedIndex) mixedRegions classes ∧
        report.updated = (mixedRegions.zip classes).filterMap updatedEntry? := by
  have accepted : (mergeRates mixedIndex mixedRegions).report =
      .ok ⟨[("north", 1)], ["<unnamed>"], ["south"], false⟩ := by rfl
  obtain ⟨whole, accounts, -⟩ := mergeRates_accounts mixedIndex mixedRegions
  obtain ⟨-, classes, falls, -, -, updated, -, -⟩ := accounts _ accepted
  exact ⟨_, accepted, whole.mp ⟨_, accepted⟩, rfl, rfl, rfl, classes, falls, updated⟩

end GridReport.Sku
