import GridReport.Files
import GridReport.Json.Printer
import GridReport.Json.Reader
import GridReport.Sku.Merge

/-!
The update of a region configuration from a billing catalog.

Everything that can fail without an effect comes first; the only write is the last step.
-/

namespace GridReport.Sku

def readDocument (files : Files) (path : String) : Except Error Json :=
  match files.readText path with
  | .error fault => .error (.configuration (.documentFile path fault))
  | .ok content =>
    match Json.parse content with
    | .error fault => .error (.document fault)
    | .ok document => .ok document

/-- What a configuration says about its regions. -/
inductive Regions where
  /-- There are none. -/
  | absent
  | listed (regions : List Json)
  /-- They are something else than a list. -/
  | misplaced

def regionsOf (config : Json) : Regions :=
  match (config.field? "gcp").bind (·.field? "regions") with
  | none => .absent
  | some .null => .absent
  | some (.list []) => .absent
  | some (.list regions) => .listed regions
  | some _ => .misplaced

def mapField (key : String) (change : Json → Json) (document : Json) : Json :=
  match document with
  | .object fields =>
    .object (fields.map fun field => if field.1 = key then (field.1, change field.2) else field)
  | other => other

def setRegions (regions : List Json) (config : Json) : Json :=
  mapField "gcp" (mapField "regions" fun _ => .list regions) config

/-- What an update comes to before anything is written: the merge, and the configuration to write,
if there are regions at all. -/
structure Prepared where
  merged : Merged
  document : Json

/-- Reads and merges everything. The parts that a stopped update went through are in the second
component: the index, and what became of the regions. -/
def prepare (files : Files) (configPath catalogPath : String) : Except Error (Option Prepared) := do
  let config ← readDocument files configPath
  let catalog ← readDocument files catalogPath
  let skus ← index catalog
  match regionsOf config with
  | .absent => return none
  | .misplaced => throw (.configuration (.regionsNotList configPath))
  | .listed regions =>
    let merged := mergeRates skus regions
    return some ⟨merged, setRegions merged.regions config⟩

def update (files : Files) (configPath catalogPath outputPath : String) :
    Except Error MergeReport × Files :=
  match prepare files configPath catalogPath with
  | .error error => (.error error, files)
  | .ok none => (.ok .empty, files)
  | .ok (some prepared) =>
    match prepared.merged.report with
    | .error error => (.error error, files)
    | .ok report =>
      match files.writeText outputPath (Json.pretty prepared.document) with
      | .error fault => (.error (.file fault), files)
      | .ok after => (.ok { report with written := true }, after)

/-- What there is to say about an update. -/
inductive Remark where
  /-- The catalog has no SKU documents. -/
  | noSkus
  /-- The configuration has no regions. -/
  | noRegions
  | outcome (outcome : Outcome)
deriving Repr, DecidableEq

/-- What there is to say about an update, also about one that fails; the regions that come before
one that stops the merge are spoken of. -/
def remarks (files : Files) (configPath catalogPath : String) : List Remark :=
  match readDocument files configPath, readDocument files catalogPath with
  | .ok config, .ok catalog =>
    (if (entries catalog).isEmpty then [.noSkus] else []) ++
      match index catalog, regionsOf config with
      | .ok _, .absent => [.noRegions]
      | .ok skus, .listed regions => (mergeRates skus regions).outcomes.map .outcome
      | _, _ => []
  | _, _ => []

end GridReport.Sku
