import GridReport.Sku.Index

/-!
Tiered rates copied from SKU documents into region documents.

Each region has one of three outcomes, or it stops the merge. The regions before the one that stops
it keep what they were given.
-/

namespace GridReport.Sku

/-- What happened to each region, by name and in region order. -/
structure MergeReport where
  /-- The regions that were given rates, with the number of tiers. -/
  updated : List (String × Nat)
  /-- The regions whose SKU has no rates. -/
  withoutRates : List String
  /-- The regions whose SKU is not in the index. -/
  missingSku : List String
  /-- A file was written. -/
  written : Bool
deriving Repr, DecidableEq

def MergeReport.empty : MergeReport := ⟨[], [], [], false⟩

/-- What happens to a region. -/
inductive Outcome where
  | updated (name : String) (tiers : Nat)
  | withoutRates (name : String)
  /-- The SKU with this id is not in the index. -/
  | missingSku (name id : String)
deriving Repr, DecidableEq

def MergeReport.enter (report : MergeReport) : Outcome → MergeReport
  | .updated name tiers => { report with updated := report.updated ++ [(name, tiers)] }
  | .withoutRates name => { report with withoutRates := report.withoutRates ++ [name] }
  | .missingSku name _ => { report with missingSku := report.missingSku ++ [name] }

def MergeReport.ofOutcomes (outcomes : List Outcome) : MergeReport :=
  outcomes.foldl MergeReport.enter .empty

def regionName (region : Json) : String := (region.textField? "name").getD "<unnamed>"

def tieredRates? (pricing : Json) : Option (List Json) :=
  match (pricing.field? "pricingExpression").bind (·.itemsField? "tieredRates") with
  | some [] => none
  | other => other

def applyRates (region : Json) (rates : Option (List Json)) : Json × Outcome :=
  let name := regionName region
  match rates, region with
  | some tiers, .object fields =>
    (.object (Json.setField "tieredRates" (.list tiers) fields), .updated name tiers.length)
  | _, _ => (region, .withoutRates name)

def mergeRegion (skus : Index) (region : Json) : Except Error (Json × Outcome) :=
  let name := regionName region
  match region.textField? "skuId" with
  | none => .error (.pricing (.regionWithoutSku name))
  | some id =>
    match skus.lookup id with
    | none => .ok (region, .missingSku name id)
    | some sku =>
      match (sku.itemsField? "pricingInfo").getD [] with
      | [pricing] => .ok (applyRates region (tieredRates? pricing))
      | others => .error (.pricing (.pricingEntries id others.length))

/-- What a merge leaves: all regions, the outcomes up to the region that stopped it, and the error
of that region. -/
structure Merged where
  regions : List Json
  outcomes : List Outcome
  stopped : Option Error

def mergeRates (skus : Index) : List Json → Merged
  | [] => ⟨[], [], none⟩
  | region :: rest =>
    match mergeRegion skus region with
    | .error error => ⟨region :: rest, [], some error⟩
    | .ok (merged, outcome) =>
      let after := mergeRates skus rest
      ⟨merged :: after.regions, outcome :: after.outcomes, after.stopped⟩

def Merged.report (merged : Merged) : Except Error MergeReport :=
  match merged.stopped with
  | some error => .error error
  | none => .ok (MergeReport.ofOutcomes merged.outcomes)

end GridReport.Sku
