import GridReport.Proofs.FileTree
import GridReport.Proofs.RateMerge
import GridReport.Sku.Update
import Mathlib.Data.List.Basic

/-!
What an update of a region configuration leaves behind.

The merge in memory keeps what it did before a region stopped it; the files do not show that, since
all that can fail comes in front of the one write.

* `readDocument_eq_ok`, `readDocument_eq_error` — the document in a file, or why there is none.
* `setRegions_changes` — setting the regions changes nothing else in a document that has been read.
* `update_ends` — the four ways in which an update ends.
* `update_writes_last` — a stopped merge, a refused update and a written one.
-/

namespace GridReport.Sku

/-! ### Documents in files -/

/-- The file at the path holds the document. -/
def Holds (files : Files) (path : String) (document : Json) : Prop :=
  ∃ content, files.readText path = .ok content ∧ Json.parse content = .ok document

/-- Why there is no document at the path. -/
inductive Unread (files : Files) (path : String) : Error → Prop where
  | unreadable {fault : FileFault} (refused : files.readText path = .error fault) :
      Unread files path (.configuration (.documentFile path fault))
  | malformed {content : String} {fault : Json.Fault} (text : files.readText path = .ok content)
      (refused : Json.parse content = .error fault) : Unread files path (.document fault)

/-- The value stands at `gcp`, `regions` in the configuration. -/
def RegionsAt (config value : Json) : Prop :=
  ∃ gcp, config.field? "gcp" = some gcp ∧ gcp.field? "regions" = some value

section Reading

variable {files : Files} {path : String}

/-- A document is read exactly from a file that holds one. -/
theorem readDocument_eq_ok {document : Json} :
    readDocument files path = .ok document ↔ Holds files path document := by
  rw [readDocument, Holds]
  constructor
  · intro h
    split at h
    · cases h
    · rename_i content htext
      split at h
      · cases h
      · rename_i hparse
        cases h
        exact ⟨content, htext, hparse⟩
  · rintro ⟨content, htext, hparse⟩
    rw [htext]
    simp only [hparse]

theorem readDocument_of_unread {error : Error} (h : Unread files path error) :
    readDocument files path = .error error := by
  rw [readDocument]
  cases h with
  | unreadable refused => rw [refused]
  | malformed text refused =>
      rw [text]
      simp only [refused]

/-- A file holds a document, or there is a reason why it is not read. -/
theorem holds_or_unread (files : Files) (path : String) :
    (∃ document, Holds files path document) ∨ ∃ error, Unread files path error := by
  cases htext : files.readText path with
  | error fault => exact .inr ⟨_, .unreadable htext⟩
  | ok content =>
      cases hparse : Json.parse content with
      | error fault => exact .inr ⟨_, .malformed htext hparse⟩
      | ok document => exact .inl ⟨document, content, htext, hparse⟩

/-- A document that is read has no key twice. -/
theorem Holds.distinct {document : Json} (h : Holds files path document) :
    Json.Distinct document := by
  obtain ⟨content, -, hparse⟩ := h
  exact Json.parse_distinct hparse

end Reading

/-! ### The regions of a configuration -/

theorem regionsOf_eq (config : Json) :
    regionsOf config =
      match (config.field? "gcp").bind (·.field? "regions") with
      | none => .absent
      | some .null => .absent
      | some (.list []) => .absent
      | some (.list regions) => .listed regions
      | some _ => .misplaced := rfl

/-- The regions stand at two keys, one below the other. -/
theorem regionsAt_iff {config value : Json} :
    RegionsAt config value ↔ (config.field? "gcp").bind (·.field? "regions") = some value := by
  rw [RegionsAt, Option.bind_eq_some_iff]

theorem regionsOf_listed {config : Json} {regions : List Json}
    (there : RegionsAt config (.list regions)) (nonempty : regions ≠ []) :
    regionsOf config = .listed regions := by
  rw [regionsOf_eq, regionsAt_iff.mp there]
  cases regions with
  | nil => exact absurd rfl nonempty
  | cons region rest => rfl

theorem regionsOf_absent {config : Json}
    (nothing : ∀ value, RegionsAt config value → value = .null ∨ value = .list []) :
    regionsOf config = .absent := by
  rw [regionsOf_eq]
  cases there : (config.field? "gcp").bind (·.field? "regions") with
  | none => rfl
  | some value =>
      rcases nothing value (regionsAt_iff.mpr there) with rfl | rfl
      · rfl
      · rfl

theorem regionsOf_misplaced {config value : Json} (there : RegionsAt config value)
    (not_null : value ≠ .null) (no_list : ∀ items, value ≠ .list items) :
    regionsOf config = .misplaced := by
  rw [regionsOf_eq, regionsAt_iff.mp there]
  cases value with
  | null => exact absurd rfl not_null
  | list items => exact absurd rfl (no_list items)
  | bool | int | real | text | object => rfl

/-- There are no regions, or there is a list of some, or there is something else. -/
theorem regions_cases (config : Json) :
    (∀ value, RegionsAt config value → value = .null ∨ value = .list []) ∨
      (∃ regions, RegionsAt config (.list regions) ∧ regions ≠ []) ∨
      ∃ value, RegionsAt config value ∧ value ≠ .null ∧ ∀ items, value ≠ .list items := by
  have only : ∀ {value}, (config.field? "gcp").bind (·.field? "regions") = some value →
      ∀ other, RegionsAt config other → other = value := fun there other h =>
    Option.some.inj ((regionsAt_iff.mp h).symm.trans there)
  cases there : (config.field? "gcp").bind (·.field? "regions") with
  | none =>
      refine .inl fun value h => ?_
      rw [regionsAt_iff, there] at h
      cases h
  | some value =>
      have here := regionsAt_iff.mpr there
      cases value with
      | null => exact .inl fun other h => .inl (only there other h)
      | list items =>
          cases items with
          | nil => exact .inl fun other h => .inr (only there other h)
          | cons region rest => exact .inr (.inl ⟨_, here, List.cons_ne_nil _ _⟩)
      | bool | int | real | text | object =>
          exact .inr (.inr ⟨_, here, by simp, by simp⟩)

/-! ### Setting the regions -/

/-- The documents are the same but for the value of one field. -/
inductive FieldChanged (key : String) (old new : Json) : Json → Json → Prop where
  | at {front back : List (String × Json)} :
      FieldChanged key old new (.object (front ++ (key, old) :: back))
        (.object (front ++ (key, new) :: back))

/-- The configurations are the same but for the entries of `gcp`, `regions`. -/
def RegionsChanged (old new : List Json) (before after : Json) : Prop :=
  ∃ gcp gcp', FieldChanged "gcp" gcp gcp' before after ∧
    FieldChanged "regions" (.list old) (.list new) gcp gcp'

/-- With distinct keys, changing a field is changing it in its one place. -/
theorem mapField_changes {key : String} (change : Json → Json) {document value : Json}
    (distinct : Json.Distinct document) (there : document.field? key = some value) :
    FieldChanged key value (change value) document (mapField key change document) := by
  cases distinct with
  | scalar _ noFields =>
      rw [Json.field?, noFields] at there
      cases there
  | list each => cases there
  | object keys each =>
      rename_i fields
      obtain ⟨front, back, rfl, -⟩ := List.lookup_eq_some_iff.mp there
      rw [List.map_append, List.map_cons] at keys
      obtain ⟨-, in_back, apart⟩ := List.nodup_append.mp keys
      have unchanged : ∀ {fields : List (String × Json)}, (∀ field ∈ fields, field.1 ≠ key) →
          (fields.map fun field =>
            if field.1 = key then (field.1, change field.2) else field) = fields := by
        intro fields others
        exact (List.map_congr_left fun field h => if_neg (others field h)).trans (List.map_id _)
      have front_others : ∀ field ∈ front, field.1 ≠ key := fun field h =>
        apart field.1 (List.mem_map_of_mem h) key List.mem_cons_self
      have back_others : ∀ field ∈ back, field.1 ≠ key := fun field h same =>
        (List.nodup_cons.mp in_back).1 (List.mem_map.mpr ⟨field, h, same⟩)
      rw [mapField, List.map_append, List.map_cons, unchanged front_others,
        unchanged back_others, if_pos rfl]
      exact .at

/-- Setting the regions of a document that has been read changes nothing else. -/
theorem setRegions_changes {config : Json} {old : List Json} (distinct : Json.Distinct config)
    (there : RegionsAt config (.list old)) (new : List Json) :
    RegionsChanged old new config (setRegions new config) := by
  obtain ⟨gcp, hgcp, hregions⟩ := there
  have inner := mapField_changes (fun _ => .list new) (distinct.field hgcp) hregions
  exact ⟨gcp, _, mapField_changes _ distinct hgcp, inner⟩

/-! ### The update -/

section Update

variable {files : Files} {configPath catalogPath outputPath : String}

/-- Why an update is refused before there is anything to write. -/
inductive Refused (files : Files) (configPath catalogPath : String) : Error → Prop where
  | config {error : Error} (unread : Unread files configPath error) :
      Refused files configPath catalogPath error
  | catalog {config : Json} {error : Error} (hconfig : Holds files configPath config)
      (unread : Unread files catalogPath error) : Refused files configPath catalogPath error
  | indexing {config catalog : Json} {error : Error} (hconfig : Holds files configPath config)
      (hcatalog : Holds files catalogPath catalog) (refused : index catalog = .error error) :
      Refused files configPath catalogPath error
  | misplaced {config catalog value : Json} {skus : Index}
      (hconfig : Holds files configPath config) (hcatalog : Holds files catalogPath catalog)
      (indexed : index catalog = .ok skus) (there : RegionsAt config value)
      (not_null : value ≠ .null) (no_list : ∀ items, value ≠ .list items) :
      Refused files configPath catalogPath (.configuration (.regionsNotList configPath))
  | merge {config catalog : Json} {skus : Index} {regions : List Json} {error : Error}
      (hconfig : Holds files configPath config) (hcatalog : Holds files catalogPath catalog)
      (indexed : index catalog = .ok skus) (there : RegionsAt config (.list regions))
      (stopped : (mergeRates skus regions).report = .error error) :
      Refused files configPath catalogPath error

/-- The files can be read, but there are no regions to update. -/
def NoRegions (files : Files) (configPath catalogPath : String) : Prop :=
  ∃ config catalog skus, Holds files configPath config ∧ Holds files catalogPath catalog ∧
    index catalog = .ok skus ∧
    ∀ value, RegionsAt config value → value = .null ∨ value = .list []

/-- The regions of the configuration are merged, and this is to be written. -/
structure Ready (files : Files) (configPath catalogPath : String) (config : Json)
    (regions : List Json) (merged : Merged) (report : MergeReport) : Prop where
  config_there : Holds files configPath config
  regions_there : RegionsAt config (.list regions)
  nonempty : regions ≠ []
  merges : ∃ catalog skus, Holds files catalogPath catalog ∧ index catalog = .ok skus ∧
    mergeRates skus regions = merged
  accepted : merged.report = .ok report

theorem prepare_eq {config catalog : Json} {skus : Index}
    (hconfig : Holds files configPath config) (hcatalog : Holds files catalogPath catalog)
    (indexed : index catalog = .ok skus) :
    prepare files configPath catalogPath =
      match regionsOf config with
      | .absent => .ok none
      | .misplaced => .error (.configuration (.regionsNotList configPath))
      | .listed regions =>
        .ok (some ⟨mergeRates skus regions,
          setRegions (mergeRates skus regions).regions config⟩) := by
  rw [prepare, readDocument_eq_ok.mpr hconfig, readDocument_eq_ok.mpr hcatalog]
  simp only [bind, Except.bind, indexed]
  rfl

/-- An update that is refused leaves all files as they were. -/
theorem update_of_refused {error : Error} (refused : Refused files configPath catalogPath error) :
    update files configPath catalogPath outputPath = (.error error, files) := by
  cases refused with
  | config unread => simp only [update, prepare, readDocument_of_unread unread, bind, Except.bind]
  | catalog hconfig unread =>
      simp only [update, prepare, readDocument_eq_ok.mpr hconfig, readDocument_of_unread unread,
        bind, Except.bind]
  | indexing hconfig hcatalog refused =>
      simp only [update, prepare, readDocument_eq_ok.mpr hconfig, readDocument_eq_ok.mpr hcatalog,
        refused, bind, Except.bind]
  | misplaced hconfig hcatalog indexed there not_null no_list =>
      rw [update, prepare_eq hconfig hcatalog indexed,
        regionsOf_misplaced there not_null no_list]
  | merge hconfig hcatalog indexed there stopped =>
      rename_i skus regions
      have nonempty : regions ≠ [] := by
        rintro rfl
        cases stopped
      rw [update, prepare_eq hconfig hcatalog indexed, regionsOf_listed there nonempty]
      simp only [stopped]

/-- Without regions there is nothing to write. -/
theorem update_of_noRegions (idle : NoRegions files configPath catalogPath) :
    update files configPath catalogPath outputPath = (.ok .empty, files) := by
  obtain ⟨config, catalog, skus, hconfig, hcatalog, indexed, nothing⟩ := idle
  rw [update, prepare_eq hconfig hcatalog indexed, regionsOf_absent nothing]

/-- With regions that merge, only writing the document can fail. -/
theorem update_of_ready (outputPath : String) {config : Json} {regions : List Json}
    {merged : Merged} {report : MergeReport}
    (ready : Ready files configPath catalogPath config regions merged report) :
    update files configPath catalogPath outputPath =
      match files.writable outputPath with
      | .error fault => (.error (.file fault), files)
      | .ok place => (.ok { report with written := true },
          files.put place (.text (Json.pretty (setRegions merged.regions config)))) := by
  obtain ⟨hconfig, there, nonempty, ⟨catalog, skus, hcatalog, indexed, rfl⟩, accepted⟩ := ready
  rw [update, prepare_eq hconfig hcatalog indexed, regionsOf_listed there nonempty]
  simp only [accepted, Files.writeText_eq]
  cases files.writable outputPath <;> rfl

/-- An update is refused, has no regions, or comes in front of its write. -/
theorem update_cases (files : Files) (configPath catalogPath : String) :
    (∃ error, Refused files configPath catalogPath error) ∨
      NoRegions files configPath catalogPath ∨
      ∃ config regions merged report,
        Ready files configPath catalogPath config regions merged report := by
  rcases holds_or_unread files configPath with ⟨config, hconfig⟩ | ⟨error, unread⟩
  · rcases holds_or_unread files catalogPath with ⟨catalog, hcatalog⟩ | ⟨error, unread⟩
    · cases indexed : index catalog with
      | error error => exact .inl ⟨error, .indexing hconfig hcatalog indexed⟩
      | ok skus =>
          rcases regions_cases config with
            nothing | ⟨regions, there, nonempty⟩ | ⟨value, there, not_null, no_list⟩
          · exact .inr (.inl ⟨config, catalog, skus, hconfig, hcatalog, indexed, nothing⟩)
          · cases hreport : (mergeRates skus regions).report with
            | error error =>
                exact .inl ⟨error, .merge hconfig hcatalog indexed there hreport⟩
            | ok report =>
                exact .inr (.inr ⟨config, regions, _, report, hconfig, there, nonempty,
                  ⟨catalog, skus, hcatalog, indexed, rfl⟩, hreport⟩)
          · exact .inl ⟨_, .misplaced hconfig hcatalog indexed there not_null no_list⟩
    · exact .inl ⟨error, .catalog hconfig unread⟩
  · exact .inl ⟨error, .config unread⟩

/-- What a written update leaves: the configuration with other entries in the list of its regions,
at the place that the output path leads to, and every other place as it was. -/
structure Written (files : Files) (configPath catalogPath outputPath : String)
    (report : MergeReport) (after : Files) : Prop where
  marked : report.written = true
  leaves : ∃ config regions merged place document unmarked,
    Ready files configPath catalogPath config regions merged unmarked ∧
    report = { unmarked with written := true } ∧
    RegionsChanged regions merged.regions config document ∧
    files.writable outputPath = .ok place ∧
    after.at? place = some (.text (Json.pretty document)) ∧
    ∀ other, other ≠ place → after.at? other = files.at? other

/-- The four ways in which an update ends. -/
theorem update_ends (files : Files) (configPath catalogPath outputPath : String) :
    (∃ error, Refused files configPath catalogPath error ∧
      update files configPath catalogPath outputPath = (.error error, files)) ∨
    (NoRegions files configPath catalogPath ∧
      update files configPath catalogPath outputPath = (.ok .empty, files)) ∨
    (∃ fault, files.writable outputPath = .error fault ∧
      update files configPath catalogPath outputPath = (.error (.file fault), files)) ∨
    ∃ report after, update files configPath catalogPath outputPath = (.ok report, after) ∧
      Written files configPath catalogPath outputPath report after := by
  rcases update_cases files configPath catalogPath with
    ⟨error, refused⟩ | idle | ⟨config, regions, merged, report, ready⟩
  · exact .inl ⟨error, refused, update_of_refused refused⟩
  · exact .inr (.inl ⟨idle, update_of_noRegions idle⟩)
  · have ends := update_of_ready outputPath ready
    cases writable : files.writable outputPath with
    | error fault =>
        rw [writable] at ends
        exact .inr (.inr (.inl ⟨fault, rfl, ends⟩))
    | ok place =>
        rw [writable] at ends
        refine .inr (.inr (.inr ⟨_, _, ends, rfl, config, regions, merged, place, _, report, ready,
          rfl, setRegions_changes ready.config_there.distinct ready.regions_there _, writable,
          Files.at?_put_self (Files.not_directory_of_writable writable),
          fun other h => Files.at?_put_other h⟩))

end Update

/-- **An update writes last or not at all.** A merge that is stopped is stopped by the first region
without an SKU, or whose SKU in the index does not have one pricing entry; the regions in front of
it are what a merge of them alone gives, and it and all behind it are as before. An update leaves
every file as it was unless it ends well and says that it has written. It does not write if a file
cannot be read or holds no document, if the catalog cannot be indexed, if the regions are no list or
if the merge is stopped; nor if there are no regions, where the report is empty. What it writes is
the configuration that it has read, with other entries in the list of its regions and no other
difference. -/
theorem update_writes_last (files : Files) (configPath catalogPath outputPath : String) :
    (∀ skus regions error, (mergeRates skus regions).report = .error error →
      ∃ front region back, regions = front ++ region :: back ∧
        (∀ r ∈ front, Mergeable skus r) ∧ ¬ Mergeable skus region ∧ Stops skus region error ∧
        (∃ report, (mergeRates skus front).report = .ok report) ∧
        (mergeRates skus regions).regions = (mergeRates skus front).regions ++ region :: back) ∧
    (∀ result after, update files configPath catalogPath outputPath = (result, after) →
      after = files ∨ ∃ report, result = .ok report ∧ report.written = true) ∧
    (∀ error, Refused files configPath catalogPath error →
      update files configPath catalogPath outputPath = (.error error, files)) ∧
    (NoRegions files configPath catalogPath →
      update files configPath catalogPath outputPath = (.ok ⟨[], [], [], false⟩, files)) ∧
    ∀ report after, update files configPath catalogPath outputPath = (.ok report, after) →
      report.written = true → Written files configPath catalogPath outputPath report after := by
  refine ⟨?_, ?_, fun _ => update_of_refused, update_of_noRegions, ?_⟩
  · intro skus regions error stopped
    rcases mergeable_or_stops skus regions with
      all | ⟨front, region, back, error', rfl, before, stops⟩
    · rw [report_eq_error_iff, mergeRates_stopped_iff.mpr all] at stopped
      cases stopped
    · rw [report_eq_error_iff, mergeRates_stops before stops] at stopped
      cases stopped
      refine ⟨front, region, back, rfl, before, not_mergeable_of_stops stops, stops, ?_, ?_⟩
      · exact ⟨_, report_eq_ok_iff.mpr ⟨mergeRates_stopped_iff.mpr before, rfl⟩⟩
      · rw [mergeRates_stops before stops]
  · intro result after ends
    rcases update_ends files configPath catalogPath outputPath with
      ⟨_, _, h⟩ | ⟨_, h⟩ | ⟨_, _, h⟩ | ⟨report, _, h, written⟩
    · exact .inl (congrArg Prod.snd (ends.symm.trans h))
    · exact .inl (congrArg Prod.snd (ends.symm.trans h))
    · exact .inl (congrArg Prod.snd (ends.symm.trans h))
    · exact .inr ⟨report, congrArg Prod.fst (ends.symm.trans h), written.marked⟩
  · intro report after ends marked
    rcases update_ends files configPath catalogPath outputPath with
      ⟨_, _, h⟩ | ⟨_, h⟩ | ⟨_, _, h⟩ | ⟨report', after', h, written⟩
    · cases ends.symm.trans h
    · cases ends.symm.trans h
      cases marked
    · cases ends.symm.trans h
    · cases ends.symm.trans h
      exact written

/-- A configuration with one region and a catalog with its SKU. -/
def regionFiles : Files :=
  ⟨[(["config.json"], .text
      "\x7b\"gcp\":\x7b\"regions\":[\x7b\"skuId\":\"A\"\x7d]\x7d\x7d"),
    (["skus.json"], .text
      ("\x7b\"skus\":[\x7b\"skuId\":\"A\",\"pricingInfo\":" ++
        "[\x7b\"pricingExpression\":\x7b\"tieredRates\":[0]\x7d\x7d]\x7d]\x7d"))]⟩

/-- The configuration may be written over itself. -/
theorem update_writes_last_in_place :
    ∃ report after, update regionFiles "config.json" "skus.json" "config.json" =
        (.ok report, after) ∧ report.written = true ∧
      Written regionFiles "config.json" "skus.json" "config.json" report after := by
  have accepted : (update regionFiles "config.json" "skus.json" "config.json").1.toOption =
      some ⟨[("<unnamed>", 1)], [], [], true⟩ := by decide +kernel
  obtain ⟨-, -, -, -, writes⟩ :=
    update_writes_last regionFiles "config.json" "skus.json" "config.json"
  cases ends : update regionFiles "config.json" "skus.json" "config.json" with
  | mk result after =>
      rw [ends] at accepted
      cases result with
      | error error => cases accepted
      | ok report =>
          cases accepted
          exact ⟨_, after, rfl, rfl, writes _ after ends rfl⟩

end GridReport.Sku
