import GridReport.Proofs.Documents
import GridReport.Proofs.PrintedDocuments
import GridReport.Summary.Document
import Mathlib.Data.List.Sort

/-!
What the document of a summary tells of its data.

* `field_ofData` — a field of the data is a curve or another part of the data, and only then the
  tag.
* `eq_of_ofData` — data with finite numbers is told by its document.
* `render_tells` — the text of a summary shows one document, and its data is told by it.

A curve of the name `kind` takes the place of the tag. The variant is still told then: the field
holds points and no text.
-/

namespace GridReport

open Json

/-! ### Fields set one after another -/

/-- Fields of other keys leave a key's value as it was. -/
theorem lookup_setFields_of_absent {key : String} {fields : List (String × Json)}
    (absent : ∀ field ∈ fields, field.1 ≠ key) (done : List (String × Json)) :
    (fields.foldl (fun done field => setField field.1 field.2 done) done).lookup key =
      done.lookup key := by
  induction fields generalizing done with
  | nil => rfl
  | cons field rest ih =>
      obtain ⟨other, later⟩ := List.forall_mem_cons.mp absent
      rw [List.foldl_cons, ih later, lookup_setField, if_neg other.symm]

/-- Fields of distinct keys are all found, and hide what was there before. -/
theorem lookup_setFields (key : String) {fields : List (String × Json)}
    (distinct : (fields.map Prod.fst).Nodup) (done : List (String × Json)) :
    (fields.foldl (fun done field => setField field.1 field.2 done) done).lookup key =
      (fields.lookup key).or (done.lookup key) := by
  induction fields generalizing done with
  | nil => rfl
  | cons field rest ih =>
      obtain ⟨found, value⟩ := field
      obtain ⟨new, distinct⟩ := List.nodup_cons.mp distinct
      rw [List.foldl_cons, lookup_field]
      by_cases same : key = found
      · have absent : ∀ field ∈ rest, field.1 ≠ key := by
          rintro field here rfl
          exact new (List.mem_map.mpr ⟨field, here, same⟩)
        rw [lookup_setFields_of_absent absent, lookup_setField, if_pos same, if_pos same,
          Option.some_or]
      · rw [ih distinct, lookup_setField, if_neg same, if_neg same]

/-- What holds of the new fields and of the old ones holds of all. -/
theorem forall_setFields {holds : Json → Prop} {fields done : List (String × Json)}
    (new : ∀ field ∈ fields, holds field.2) (old : ∀ field ∈ done, holds field.2) :
    ∀ field ∈ fields.foldl (fun done field => setField field.1 field.2 done) done,
      holds field.2 := by
  induction fields generalizing done with
  | nil => exact old
  | cons field rest ih =>
      obtain ⟨first, later⟩ := List.forall_mem_cons.mp new
      exact ih later (forall_setField first old)

/-! ### Lists and their images -/

/-- Lists are told by their images, if their items are. -/
theorem eq_of_map_eq {α β : Type} {f : α → β} {xs ys : List α} (same : xs.map f = ys.map f)
    (told : ∀ x ∈ xs, ∀ y ∈ ys, f x = f y → x = y) : xs = ys := by
  induction xs generalizing ys with
  | nil => exact (List.map_eq_nil_iff.mp same.symm).symm
  | cons x xs ih =>
      obtain ⟨y, ys, rfl, first, rest⟩ := List.map_eq_cons_iff.mp same.symm
      obtain rfl := told x List.mem_cons_self y List.mem_cons_self first.symm
      rw [ih rest.symm fun x hx y hy =>
        told x (List.mem_cons_of_mem _ hx) y (List.mem_cons_of_mem _ hy)]

/-- What is found under a key after each value has been replaced. -/
theorem lookup_map_value {β γ : Type} (f : β → γ) (key : String) (fields : List (String × β)) :
    (fields.map fun field => (field.1, f field.2)).lookup key = (fields.lookup key).map f := by
  induction fields with
  | nil => rfl
  | cons field rest ih =>
      rw [List.map_cons, List.lookup_cons, List.lookup_cons, ih]
      split <;> rfl

namespace Curves

/-- The keys ascend, so none comes twice. -/
def Keyed (curves : Curves) : Prop := curves.Pairwise fun a b => a.1 < b.1

variable {curves : Curves}

theorem Keyed.distinct (keyed : curves.Keyed) : (curves.map Prod.fst).Nodup :=
  List.pairwise_map.mpr (List.Pairwise.imp String.ne_of_lt keyed)

theorem Keyed.lookup_eq_some (keyed : curves.Keyed) {key : String} {curve : Curve} :
    curves.lookup key = some curve ↔ (key, curve) ∈ curves := by
  rw [List.lookup_eq_some_iff]
  constructor
  · rintro ⟨front, back, rfl, -⟩
    exact List.mem_append_right _ List.mem_cons_self
  · intro here
    obtain ⟨front, back, rfl⟩ := List.append_of_mem here
    refine ⟨front, back, rfl, ?_⟩
    intro other before
    have smaller := (List.pairwise_append.mp keyed).2.2 other before _ List.mem_cons_self
    exact bne_iff_ne.mpr (String.ne_of_lt smaller).symm

/-- Curves in the order of their keys are told by what is found under each key. -/
theorem Keyed.eq_of_lookup {others : Curves} (keyed : curves.Keyed) (keyed' : others.Keyed)
    (same : ∀ key, curves.lookup key = others.lookup key) : curves = others := by
  have irreflexive : Std.Irrefl fun a b : String × Curve => a.1 < b.1 :=
    ⟨fun a => String.lt_irrefl a.1⟩
  have asymmetric : Std.Asymm fun a b : String × Curve => a.1 < b.1 :=
    ⟨fun _ _ => String.lt_asymm⟩
  apply List.Pairwise.eq_of_mem_iff keyed keyed'
  rintro ⟨key, curve⟩
  rw [← keyed.lookup_eq_some, same, keyed'.lookup_eq_some]

end Curves

/-! ### The data of a chart -/

namespace ChartData

/-- The curves of the data. -/
def curvesOf : ChartData → Curves
  | .aligned _ _ => []
  | .histogram _ => []
  | .curves data => data

/-- All numbers of the data are finite. -/
def Finite : ChartData → Prop
  | .aligned _ series => (∀ bin ∈ series.axis, bin.weight.isFinite) ∧
      (∀ weight ∈ series.first, weight.isFinite) ∧ ∀ weight ∈ series.second, weight.isFinite
  | .histogram data => ∀ edge ∈ data.edges, edge.isFinite
  | .curves data => ∀ curve ∈ data, ∀ point ∈ curve.2, point.2.isFinite

end ChartData

namespace Summary.Document

/-- A number is printable: one that is not finite is null. -/
theorem printable_number (value : Float) : Printable (number value) := by
  unfold number
  split
  · rename_i finite
    exact .real finite
  · exact .null

theorem printable_numbers (values : List Float) : Printable (.list (values.map number)) := by
  apply Printable.list
  intro item here
  obtain ⟨value, -, rfl⟩ := List.mem_map.mp here
  exact printable_number value

theorem printable_ofBin (bin : Bin) : Printable (ofBin bin) := by
  apply Printable.object
  simp only [List.forall_mem_cons]
  exact ⟨.int _, .int _, printable_number _, List.forall_mem_nil _⟩

theorem printable_ofSeries (series : AlignedSeries) : Printable (ofSeries series) := by
  apply Printable.object
  simp only [List.forall_mem_cons]
  refine ⟨.int _, .list ?_, printable_numbers _, printable_numbers _, List.forall_mem_nil _⟩
  intro item here
  obtain ⟨bin, -, rfl⟩ := List.mem_map.mp here
  exact printable_ofBin bin

theorem printable_ofCurve (curve : Curve) : Printable (ofCurve curve) := by
  apply Printable.list
  intro item here
  obtain ⟨point, -, rfl⟩ := List.mem_map.mp here
  apply Printable.list
  simp only [List.forall_mem_cons]
  exact ⟨.int _, printable_number _, List.forall_mem_nil _⟩

theorem printable_fields (data : ChartData) : ∀ field ∈ fields data, Printable field.2 := by
  cases data with
  | aligned labels series =>
      simp only [fields, List.forall_mem_cons]
      refine ⟨.list ?_, printable_ofSeries series, List.forall_mem_nil _⟩
      simp only [List.forall_mem_cons]
      exact ⟨.text _, .text _, List.forall_mem_nil _⟩
  | histogram data =>
      simp only [fields, List.forall_mem_cons]
      refine ⟨printable_numbers _, .list ?_, List.forall_mem_nil _⟩
      intro item here
      obtain ⟨count, -, rfl⟩ := List.mem_map.mp here
      exact .int _
  | curves data =>
      intro field here
      obtain ⟨curve, -, rfl⟩ := List.mem_map.mp here
      exact printable_ofCurve curve.2

/-- Every chart's data can be printed. -/
theorem printable_ofData (data : ChartData) : Printable (ofData data) := by
  apply Printable.object
  apply forall_setFields (printable_fields data)
  simp only [List.forall_mem_cons]
  exact ⟨.text _, List.forall_mem_nil _⟩

/-- Every summary can be printed. -/
theorem printable_ofSummary (summary : Summary) : Printable (ofSummary summary) := by
  apply Printable.object
  simp only [List.forall_mem_cons]
  exact ⟨.text _, .text _, .int _, printable_ofData _, List.forall_mem_nil _⟩

theorem printable_withOrigin (origin : Origin) {result : Json} (printable : Printable result) :
    Printable (withOrigin origin result) := by
  apply Printable.object
  simp only [List.forall_mem_cons]
  refine ⟨.object ?_, printable, List.forall_mem_nil _⟩
  simp only [List.forall_mem_cons]
  exact ⟨.text _, .text _, .text _, .text _, List.forall_mem_nil _⟩

/-! ### The fields of the data -/

/-- The fields of one chart have distinct keys, if its curves have. -/
theorem fields_distinct {data : ChartData} (keyed : data.curvesOf.Keyed) :
    ((fields data).map Prod.fst).Nodup := by
  cases data with
  | aligned labels series => simp [fields]
  | histogram data => simp [fields]
  | curves data =>
      rw [fields, List.map_map]
      exact keyed.distinct

/-- A field of the data is a curve or another part of the data, and only then the tag. -/
theorem field_ofData {data : ChartData} (keyed : data.curvesOf.Keyed) (key : String) :
    (ofData data).field? key =
      ((fields data).lookup key).or (if key = "kind" then some (.text (kind data)) else none) := by
  have found : (ofData data).field? key = _ := lookup_setFields key (fields_distinct keyed) _
  rw [found, lookup_field, List.lookup_nil]

/-- A curve stands in the document under its own key, and hides a tag of that key. -/
theorem field_curves {data : Curves} (keyed : (ChartData.curves data).curvesOf.Keyed)
    (key : String) :
    (ofData (.curves data)).field? key = ((data.lookup key).map ofCurve).or
      (if key = "kind" then some (.text "curves") else none) := by
  rw [field_ofData keyed, fields, lookup_map_value, kind]

/-- Every curve of a chart is found in its document. -/
theorem field_of_mem {data : ChartData} (keyed : data.curvesOf.Keyed) {curve : String × Curve}
    (here : curve ∈ data.curvesOf) : (ofData data).field? curve.1 = some (ofCurve curve.2) := by
  cases data with
  | aligned labels series => cases here
  | histogram data => cases here
  | curves data =>
      have listed : data.lookup curve.1 = some curve.2 := keyed.lookup_eq_some.mpr here
      rw [field_curves keyed, listed, Option.map_some, Option.some_or]

/-- The tag is there if no curve takes its place. -/
theorem field_kind {data : ChartData} (free : ∀ curve ∈ data.curvesOf, curve.1 ≠ "kind") :
    (ofData data).field? "kind" = some (.text (kind data)) := by
  have absent : ∀ field ∈ fields data, field.1 ≠ "kind" := by
    cases data with
    | aligned labels series => simp [fields]
    | histogram data => simp [fields]
    | curves data =>
        intro field here
        obtain ⟨curve, listed, rfl⟩ := List.mem_map.mp here
        exact free curve listed
  have found : (ofData data).field? "kind" = _ := lookup_setFields_of_absent absent _
  rw [found, lookup_field, if_pos rfl]

/-- The variant that the data of a chart shows: that of the tag, or curves where points stand in its
place. -/
def variant? (data : Json) : Option String :=
  match data.field? "kind" with
  | some (.text tag) => some tag
  | some (.list _) => some "curves"
  | _ => none

/-- The document tells the kind of its chart, by the tag or by its shape. -/
theorem variant_ofData {data : ChartData} (keyed : data.curvesOf.Keyed) :
    variant? (ofData data) = some (kind data) := by
  by_cases free : ∀ curve ∈ data.curvesOf, curve.1 ≠ "kind"
  · rw [variant?, field_kind free]
  · push Not at free
    obtain ⟨curve, here, named⟩ := free
    have points := field_of_mem keyed here
    rw [named] at points
    rw [variant?, points]
    cases data with
    | aligned labels series => cases here
    | histogram data => cases here
    | curves data => rfl

/-! ### Data is told by its document -/

/-- Finite numbers are told apart. -/
theorem eq_of_number {a b : Float} (finite : a.isFinite) (finite' : b.isFinite)
    (same : number a = number b) : a = b := by
  rw [number, if_pos finite, number, if_pos finite'] at same
  exact Json.real.inj same

theorem eq_of_numbers {xs ys : List Float} (finite : ∀ x ∈ xs, x.isFinite)
    (finite' : ∀ y ∈ ys, y.isFinite) (same : xs.map number = ys.map number) : xs = ys :=
  eq_of_map_eq same fun x hx y hy => eq_of_number (finite x hx) (finite' y hy)

theorem eq_of_ofBin {a b : Bin} (finite : a.weight.isFinite) (finite' : b.weight.isFinite)
    (same : ofBin a = ofBin b) : a = b := by
  obtain ⟨start, finish, weight⟩ := a
  obtain ⟨start', finish', weight'⟩ := b
  simp only [ofBin, Json.object.injEq, List.cons.injEq, Prod.mk.injEq, Json.int.injEq,
    true_and, and_true] at same
  obtain ⟨rfl, rfl, weights⟩ := same
  obtain rfl := eq_of_number finite finite' weights
  rfl

/-- Curves of finite values are told apart. -/
theorem eq_of_ofCurve {a b : Curve} (finite : ∀ point ∈ a, point.2.isFinite)
    (finite' : ∀ point ∈ b, point.2.isFinite) (same : ofCurve a = ofCurve b) : a = b := by
  apply eq_of_map_eq (Json.list.inj same)
  rintro ⟨time, value⟩ here ⟨time', value'⟩ here' points
  simp only [Json.list.injEq, List.cons.injEq, Json.int.injEq, and_true] at points
  obtain ⟨rfl, values⟩ := points
  obtain rfl := eq_of_number (finite _ here) (finite' _ here') values
  rfl

/-- So are aligned series. -/
theorem eq_of_ofSeries {labels labels' : String × String} {a b : AlignedSeries}
    (finite : (ChartData.aligned labels a).Finite) (finite' : (ChartData.aligned labels' b).Finite)
    (same : ofSeries a = ofSeries b) : a = b := by
  obtain ⟨interval, axis, first, second⟩ := a
  obtain ⟨interval', axis', first', second'⟩ := b
  obtain ⟨axes, firsts, seconds⟩ := finite
  obtain ⟨axes', firsts', seconds'⟩ := finite'
  simp only [ofSeries, Json.object.injEq, List.cons.injEq, Prod.mk.injEq, Json.int.injEq,
    Json.list.injEq, true_and, and_true] at same
  obtain ⟨rfl, axis_eq, first_eq, second_eq⟩ := same
  obtain rfl := eq_of_map_eq axis_eq fun a ha b hb => eq_of_ofBin (axes a ha) (axes' b hb)
  obtain rfl := eq_of_numbers firsts firsts' first_eq
  obtain rfl := eq_of_numbers seconds seconds' second_eq
  rfl

/-- So are the curves of a chart, whatever their keys. -/
theorem eq_of_curves {a b : Curves} (keyed : a.Keyed) (keyed' : b.Keyed)
    (finite : (ChartData.curves a).Finite) (finite' : (ChartData.curves b).Finite)
    (same : ofData (.curves a) = ofData (.curves b)) : a = b := by
  apply keyed.eq_of_lookup keyed'
  intro key
  have field := congrArg (Json.field? · key) same
  simp only [field_curves keyed, field_curves keyed'] at field
  -- A curve is a list of points, so the tag never stands for one.
  cases here : a.lookup key with
  | none =>
      cases here' : b.lookup key with
      | none => rfl
      | some curve =>
          rw [here, here'] at field
          split at field <;> cases field
  | some curve =>
      cases here' : b.lookup key with
      | none =>
          rw [here, here'] at field
          split at field <;> cases field
      | some curve' =>
          rw [here, here'] at field
          have points := finite _ (keyed.lookup_eq_some.mp here)
          have points' := finite' _ (keyed'.lookup_eq_some.mp here')
          exact congrArg some (eq_of_ofCurve points points' (Option.some.inj field))

/-- Aligned charts are told apart with their labels. -/
theorem eq_of_aligned {labels labels' : String × String} {a b : AlignedSeries}
    (finite : (ChartData.aligned labels a).Finite) (finite' : (ChartData.aligned labels' b).Finite)
    (same : ofData (.aligned labels a) = ofData (.aligned labels' b)) :
    ChartData.aligned labels a = ChartData.aligned labels' b := by
  have document : ∀ labels series, ofData (.aligned labels series) = .object
      [("kind", .text "aligned"), ("labels", .list [.text labels.1, .text labels.2]),
        ("series", ofSeries series)] := fun _ _ => rfl
  simp only [document, Json.object.injEq, List.cons.injEq, Prod.mk.injEq, Json.list.injEq,
    Json.text.injEq, true_and, and_true] at same
  obtain ⟨⟨first, second⟩, series⟩ := same
  rw [Prod.ext first second, eq_of_ofSeries finite finite' series]

/-- So are histograms. -/
theorem eq_of_histogram {a b : Histogram Float} (finite : (ChartData.histogram a).Finite)
    (finite' : (ChartData.histogram b).Finite)
    (same : ofData (.histogram a) = ofData (.histogram b)) : a = b := by
  obtain ⟨edges, counts⟩ := a
  obtain ⟨edges', counts'⟩ := b
  have document : ∀ data, ofData (.histogram data) = .object
      [("kind", .text "histogram"), ("edges", .list (data.edges.map number)),
        ("counts", .list (data.counts.map fun (count : ℕ) => .int count))] := fun _ => rfl
  simp only [document, Json.object.injEq, List.cons.injEq, Prod.mk.injEq, Json.list.injEq,
    true_and, and_true] at same
  obtain ⟨edges_eq, counts_eq⟩ := same
  obtain rfl := eq_of_numbers finite finite' edges_eq
  obtain rfl := eq_of_map_eq counts_eq fun x _ y _ same => Int.ofNat_inj.mp (Json.int.inj same)
  rfl

/-- **Data with finite numbers is told by its document**, whatever its curves are called. -/
theorem eq_of_ofData {a b : ChartData} (keyed : a.curvesOf.Keyed) (keyed' : b.curvesOf.Keyed)
    (finite : a.Finite) (finite' : b.Finite) (same : ofData a = ofData b) : a = b := by
  have kinds : kind a = kind b := by
    have variants := congrArg variant? same
    rw [variant_ofData keyed, variant_ofData keyed'] at variants
    exact Option.some.inj variants
  cases a with
  | aligned labels series =>
      cases b with
      | aligned labels' series' => exact eq_of_aligned finite finite' same
      | _ => simp [kind] at kinds
  | histogram data =>
      cases b with
      | histogram data' => exact congrArg _ (eq_of_histogram finite finite' same)
      | _ => simp [kind] at kinds
  | curves data =>
      cases b with
      | curves data' => exact congrArg _ (eq_of_curves keyed keyed' finite finite' same)
      | _ => simp [kind] at kinds

/-! ### What the text shows -/

/-- The text shows the document: no other one with finite numbers is written so. -/
structure Shows (text : String) (document : Json) : Prop where
  printable : Printable document
  prints : Prints document text
  only : ∀ other : Json, Printable other → Prints other text → other = document

/-- A text shows one document only. -/
theorem Shows.eq {text : String} {document other : Json} (shown : Shows text document)
    (shown' : Shows text other) : document = other :=
  shown'.only document shown.printable shown.prints

/-- The document that is written in a style: below its origin, if the style gives one. -/
def Style.whole (style : Style) (document : Json) : Json :=
  (style.origin.map (withOrigin · document)).getD document

/-- The field `data` of a document in a style; it lies below `result` if the style gives an
origin. -/
def Style.data? (style : Style) (document : Json) : Option Json :=
  (if style.origin.isSome then document.field? "result" else some document).bind
    (·.field? "data")

/-- The text shows a document with this data. -/
def Style.Carries (style : Style) (text : String) (data : Json) : Prop :=
  ∃ document, Shows text document ∧ style.data? document = some data

theorem prints_write (style : Style) (document : Json) :
    Prints (style.whole document) (style.write document) := by
  unfold Style.write
  split
  · exact .inl rfl
  · exact .inr rfl

/-- What is written shows the whole document, in every style. -/
theorem shows_write (style : Style) {document : Json} (printable : Printable document) :
    Shows (style.write document) (style.whole document) := by
  have whole : Printable (style.whole document) := by
    unfold Style.whole
    cases style.origin with
    | none => exact printable
    | some origin => exact printable_withOrigin origin printable
  exact ⟨whole, prints_write style document, fun other printable' prints =>
    prints.unique printable' whole (prints_write style document)⟩

/-- The data of the chart are found again in the document, in every style. -/
theorem data_whole (style : Style) (summary : Summary) :
    style.data? (style.whole (ofSummary summary)) = some (ofData summary.data) := by
  unfold Style.data? Style.whole
  cases style.origin with
  | none => rfl
  | some origin => rfl

/-- The data of a document is found without its style. -/
theorem ofData_eq_of_whole {style style' : Style} {a b : Summary}
    (same : style.whole (ofSummary a) = style'.whole (ofSummary b)) :
    ofData a.data = ofData b.data := by
  have found : ∀ (style : Style) (summary : Summary),
      (((style.whole (ofSummary summary)).field? "result").getD
        (style.whole (ofSummary summary))).field? "data" = some (ofData summary.data) := by
    intro style summary
    unfold Style.whole
    cases style.origin with
    | none => rfl
    | some origin => rfl
  have both := found style a
  rw [same, found style' b] at both
  exact (Option.some.inj both).symm

/-- A written summary carries the data of its chart and no other. -/
theorem carries_iff {style : Style} {summary : Summary} {data : Json} :
    style.Carries (render style summary) data ↔ data = ofData summary.data := by
  have rendered := shows_write style (printable_ofSummary summary)
  have found := data_whole style summary
  constructor
  · rintro ⟨document, carried, there⟩
    rw [carried.eq rendered, found] at there
    exact (Option.some.inj there).symm
  · rintro rfl
    exact ⟨_, rendered, found⟩

/-- **The text of a summary tells its data.** The text shows one document, and in the data there
each curve of the summary is the field of its name, with its points. The field `kind` names the
variant unless a curve of that name takes its place. Summaries with finite numbers and different
data have different texts, and no two of their documents hold the same data. -/
theorem render_tells (style : Style) (summary : Summary)
    (keyed : summary.data.curvesOf.Keyed) :
    ∃ data, style.Carries (render style summary) data ∧
      ((∀ curve ∈ summary.data.curvesOf, curve.1 ≠ "kind") →
        data.field? "kind" = some (.text (kind summary.data))) ∧
      (∀ curve ∈ summary.data.curvesOf, data.field? curve.1 = some (ofCurve curve.2)) ∧
      ∀ (style' : Style) (other : Summary), summary.data.Finite → other.data.Finite →
        other.data.curvesOf.Keyed →
        (render style' other = render style summary ∨ style'.Carries (render style' other) data) →
        other.data = summary.data := by
  refine ⟨ofData summary.data, carries_iff.mpr rfl, field_kind, fun _ => field_of_mem keyed, ?_⟩
  intro style' other finite finite' keyed' same
  apply eq_of_ofData keyed' keyed finite' finite
  rcases same with text | carried
  · have shown := shows_write style (printable_ofSummary summary)
    have shown' := shows_write style' (printable_ofSummary other)
    rw [render, render] at text
    rw [text] at shown'
    exact ofData_eq_of_whole (shown'.eq shown)
  · exact (carries_iff.mp carried).symm

/-- The traffic of two sites. -/
def siteTraffic : Summary where
  plot := "traffic"
  chartPath := "charts/traffic.svg"
  rows := 3
  data := .curves [("DE-1", [(0, 1.5)]), ("US-2", [(3, 2.0), (7, 4.5)])]

theorem render_tells_sites :
    siteTraffic.data.curvesOf.Keyed ∧ siteTraffic.data.Finite ∧
      (∀ curve ∈ siteTraffic.data.curvesOf, curve.1 ≠ "kind") ∧
      ∃ data, (Style.mk true none).Carries (render ⟨true, none⟩ siteTraffic) data ∧
        data.field? "kind" = some (.text "curves") ∧
        data.field? "US-2" =
          some (.list [.list [.int 3, .real 2.0], .list [.int 7, .real 4.5]]) ∧
        ∀ (style' : Style) (other : Summary), other.data.Finite → other.data.curvesOf.Keyed →
          (render style' other = render ⟨true, none⟩ siteTraffic ∨
            style'.Carries (render style' other) data) →
          other.data = siteTraffic.data := by
  have keyed : siteTraffic.data.curvesOf.Keyed := List.pairwise_pair.mpr (by decide)
  have finite : siteTraffic.data.Finite := by
    simp only [ChartData.Finite, siteTraffic, List.forall_mem_cons]
    exact ⟨⟨by decide, List.forall_mem_nil _⟩, ⟨by decide, by decide, List.forall_mem_nil _⟩,
      List.forall_mem_nil _⟩
  have free : ∀ curve ∈ siteTraffic.data.curvesOf, curve.1 ≠ "kind" := by
    simp [siteTraffic, ChartData.curvesOf]
  obtain ⟨data, carried, tag, points, told⟩ := render_tells ⟨true, none⟩ siteTraffic keyed
  have found : data.field? "US-2" = some (ofCurve [(3, 2.0), (7, 4.5)]) :=
    points ("US-2", [(3, 2.0), (7, 4.5)]) (.tail _ (.head _))
  exact ⟨keyed, finite, free, data, carried, tag free, found,
    fun style' other => told style' other finite⟩

/-- The traffic of one site that is called like the tag. -/
def kindTraffic : Summary where
  plot := "traffic"
  chartPath := "charts/traffic.svg"
  rows := 1
  data := .curves [("kind", [(1, 1.0)])]

/-- The points of a curve of the name `kind` stand where the name of the variant should. -/
theorem kind_overwritten : ∃ data,
    (Style.mk false none).Carries (render ⟨false, none⟩ kindTraffic) data ∧
      data.field? "kind" = some (.list [.list [.int 1, .real 1.0]]) ∧
      data.field? "kind" ≠ some (.text (kind kindTraffic.data)) := by
  refine ⟨_, carries_iff.mpr rfl, rfl, ?_⟩
  intro tagged
  cases tagged

end Summary.Document

end GridReport
