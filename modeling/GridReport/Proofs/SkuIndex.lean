import GridReport.Proofs.RateMerge
import GridReport.Sku.Index
import Mathlib.Data.List.Induction
import Mathlib.Data.List.Pairwise

/-!
Which catalogs have an index, and what it finds.

The documents of a catalog are added one after the other. What the index holds at any time is told
by the documents in front: their entries, in their order. So a document is judged by those in front
of it, and the first one that may not join them ends the run.

* `addAll_append` — documents that may be indexed together leave their entries.
* `indexable_or_rejects` — any other list has a first document that is rejected.
* `lookup_entriesOf` — the entries lead from each id to its own document.
* `index_decides` — the catalogs with an index, what it finds in any order of the documents, and why
  any other catalog is refused.
-/

namespace GridReport.Sku

/-! ### Documents and entries -/

/-- The documents of a catalog: the list at `skus`, and none if there is no list. -/
inductive Lists (catalog : Json) : List Json → Prop where
  | listed {skus : List Json} (here : catalog.field? "skus" = some (.list skus)) :
      Lists catalog skus
  | unlisted (absent : ∀ skus, catalog.field? "skus" ≠ some (.list skus)) : Lists catalog []

/-- No id is that of both documents. -/
def ShareNoId (a b : Json) : Prop := ∀ id, HasSku a id → ¬ HasSku b id

instance : Std.Symm ShareNoId := ⟨fun _ _ apart id there here => apart id here there⟩

/-- Documents that may be indexed together: each has an id, and no two have the same one. -/
structure Indexable (skus : List Json) : Prop where
  named : ∀ sku ∈ skus, ∃ id, HasSku sku id
  distinct : skus.Pairwise ShareNoId

/-- Why a document may not join those in front of it. -/
inductive Rejects (front : List Json) (sku : Json) : Error → Prop where
  | nameless (absent : ∀ id, ¬ HasSku sku id) : Rejects front sku (.pricing .skuWithoutId)
  | repeated {earlier : Json} {id : String} (here : HasSku sku id) (before : earlier ∈ front)
      (there : HasSku earlier id) : Rejects front sku (.pricing (.duplicateSku id))

/-- The entry of a document with an id. -/
def entryOf? (sku : Json) : Option (String × Json) :=
  (sku.textField? "skuId").map fun id => (id, sku)

/-- The entries of the documents that have an id. -/
def entriesOf (skus : List Json) : Index := skus.filterMap entryOf?

theorem lists_entries (catalog : Json) : Lists catalog (entries catalog) := by
  rw [entries]
  cases found : catalog.itemsField? "skus" with
  | some skus => exact .listed (itemsField?_eq_some.mp found)
  | none =>
      refine .unlisted fun skus here => ?_
      rw [itemsField?_eq_some.mpr here] at found
      cases found

theorem entryOf?_eq_some {sku other : Json} {id : String} :
    entryOf? sku = some (id, other) ↔ other = sku ∧ HasSku sku id := by
  rw [entryOf?, Option.map_eq_some_iff, hasSku_iff]
  constructor
  · rintro ⟨_, found, ⟨⟩⟩
    exact ⟨rfl, found⟩
  · rintro ⟨rfl, found⟩
    exact ⟨id, found, rfl⟩

/-- The entries are the documents under their ids. -/
theorem mem_entriesOf {skus : List Json} {id : String} {sku : Json} :
    (id, sku) ∈ entriesOf skus ↔ sku ∈ skus ∧ HasSku sku id := by
  rw [entriesOf, List.mem_filterMap]
  simp only [entryOf?_eq_some]
  constructor
  · rintro ⟨_, listed, rfl, here⟩
    exact ⟨listed, here⟩
  · rintro ⟨listed, here⟩
    exact ⟨sku, listed, rfl, here⟩

theorem isSome_lookup_entriesOf {skus : List Json} {id : String} :
    ((entriesOf skus).lookup id).isSome ↔ ∃ sku ∈ skus, HasSku sku id := by
  simp only [List.lookup_isSome_iff, Prod.exists, mem_entriesOf, beq_iff_eq]
  constructor
  · rintro ⟨_, sku, known, rfl⟩
    exact ⟨sku, known⟩
  · rintro ⟨sku, known⟩
    exact ⟨id, sku, known, rfl⟩

/-- A document is entered at the end. -/
theorem entriesOf_concat {front : List Json} {sku : Json} {id : String} (here : HasSku sku id) :
    entriesOf (front ++ [sku]) = entriesOf front ++ [(id, sku)] := by
  rw [entriesOf, List.filterMap_append, List.filterMap_cons_some (entryOf?_eq_some.mpr ⟨rfl, here⟩)]
  rfl

section Documents

variable {front back skus others : List Json} {sku : Json}

theorem Indexable.nil : Indexable [] := ⟨by simp, .nil⟩

/-- One more document may join if it has an id that none in front has. -/
theorem indexable_concat_iff :
    Indexable (front ++ [sku]) ↔
      Indexable front ∧ ∃ id, HasSku sku id ∧ ∀ earlier ∈ front, ¬ HasSku earlier id := by
  constructor
  · rintro ⟨named, distinct⟩
    obtain ⟨apart, -, across⟩ := List.pairwise_append.mp distinct
    obtain ⟨id, here⟩ := named sku (by simp)
    refine ⟨⟨fun other listed => named other (by simp [listed]), apart⟩, id, here, ?_⟩
    intro earlier before there
    exact across earlier before sku List.mem_cons_self id there here
  · rintro ⟨⟨named, distinct⟩, id, here, fresh⟩
    refine ⟨?_, List.pairwise_append.mpr ⟨distinct, List.pairwise_singleton _ _, ?_⟩⟩
    · intro other listed
      rcases List.mem_append.mp listed with before | last
      · exact named other before
      · exact ⟨id, List.mem_singleton.mp last ▸ here⟩
    · intro earlier before last same there here'
      obtain rfl := List.mem_singleton.mp same
      intro again
      rw [here.unique again] at fresh
      exact fresh earlier before here'

/-- The first part of indexable documents is indexable. -/
theorem Indexable.of_append (indexable : Indexable (front ++ back)) : Indexable front :=
  ⟨fun sku listed => indexable.named sku (List.mem_append_left _ listed),
    (List.pairwise_append.mp indexable.distinct).1⟩

/-- Whether documents may be indexed together does not depend on their order. -/
theorem Indexable.perm (same : others.Perm skus) (indexable : Indexable skus) :
    Indexable others where
  named sku listed := indexable.named sku (same.mem_iff.mp listed)
  distinct := same.symm.pairwise indexable.distinct (Std.Symm.symm _ _)

/-- A document joins those in front of it or is rejected. -/
theorem joins_or_rejects (front : List Json) (sku : Json) :
    (∃ id, HasSku sku id ∧ ∀ earlier ∈ front, ¬ HasSku earlier id) ∨
      ∃ error, Rejects front sku error := by
  by_cases named : ∃ id, HasSku sku id
  · obtain ⟨id, here⟩ := named
    by_cases seen : ∃ earlier ∈ front, HasSku earlier id
    · obtain ⟨earlier, before, there⟩ := seen
      exact .inr ⟨_, .repeated here before there⟩
    · exact .inl ⟨id, here, fun earlier before there => seen ⟨earlier, before, there⟩⟩
  · exact .inr ⟨_, .nameless (not_exists.mp named)⟩

/-- Documents may be indexed together, or there is a first one that is rejected. -/
theorem indexable_or_rejects (skus : List Json) :
    Indexable skus ∨ ∃ front sku back error, skus = front ++ sku :: back ∧ Indexable front ∧
      Rejects front sku error := by
  induction skus using List.reverseRecOn with
  | nil => exact .inl .nil
  | append_singleton skus last ih =>
      rcases ih with all | ⟨front, sku, back, error, rfl, before, rejects⟩
      · rcases joins_or_rejects skus last with joins | ⟨error, rejects⟩
        · exact .inl (indexable_concat_iff.mpr ⟨all, joins⟩)
        · exact .inr ⟨skus, last, [], error, rfl, all, rejects⟩
      · exact .inr ⟨front, sku, back ++ [last], error, by simp, before, rejects⟩

/-- Each document with an id has one entry. -/
theorem map_snd_entriesOf (named : ∀ sku ∈ skus, ∃ id, HasSku sku id) :
    (entriesOf skus).map Prod.snd = skus := by
  induction skus with
  | nil => rfl
  | cons sku skus ih =>
      obtain ⟨⟨id, here⟩, behind⟩ := List.forall_mem_cons.mp named
      rw [entriesOf, List.filterMap_cons_some (entryOf?_eq_some.mpr ⟨rfl, here⟩), List.map_cons]
      exact congrArg _ (ih behind)

/-- In indexable documents an id tells its document. -/
theorem Indexable.unique (indexable : Indexable skus) {other : Json} {id : String}
    (listed : sku ∈ skus) (here : HasSku sku id) (listed' : other ∈ skus)
    (there : HasSku other id) : other = sku := by
  by_contra different
  exact indexable.distinct.forall listed' listed different id there here

/-- The entries of indexable documents lead from each id to the document that has it. -/
theorem lookup_entriesOf (indexable : Indexable skus) {id : String} :
    (entriesOf skus).lookup id = some sku ↔ sku ∈ skus ∧ HasSku sku id := by
  have found {other : Json} (found : (entriesOf skus).lookup id = some other) :
      other ∈ skus ∧ HasSku other id := by
    obtain ⟨before, behind, split, -⟩ := List.lookup_eq_some_iff.mp found
    exact mem_entriesOf.mp (split ▸ by simp)
  refine ⟨found, ?_⟩
  rintro ⟨listed, here⟩
  obtain ⟨other, first⟩ :=
    Option.isSome_iff_exists.mp (isSome_lookup_entriesOf.mpr ⟨sku, listed, here⟩)
  obtain ⟨listed', there⟩ := found first
  rw [first, indexable.unique listed here listed' there]

/-! ### The run over the documents -/

/-- Documents that may be indexed with those in front of them leave their entries. -/
theorem addAll_append (indexable : Indexable (front ++ skus)) :
    addAll (entriesOf front) (skus ++ back) = addAll (entriesOf (front ++ skus)) back := by
  induction skus generalizing front with
  | nil => rw [List.nil_append, List.append_nil]
  | cons sku skus ih =>
      rw [List.append_cons] at indexable
      obtain ⟨-, id, here, fresh⟩ := indexable_concat_iff.mp indexable.of_append
      have unseen : ((entriesOf front).lookup id).isSome = false := by
        rw [← Bool.not_eq_true, isSome_lookup_entriesOf]
        rintro ⟨earlier, before, there⟩
        exact fresh earlier before there
      rw [List.cons_append, addAll, hasSku_iff.mp here]
      simp only [unseen, Bool.false_eq_true, if_false]
      rw [← entriesOf_concat here, ih indexable, ← List.append_cons]

/-- A document that is rejected ends the run. -/
theorem addAll_of_rejects {error : Error} (rejects : Rejects front sku error) :
    addAll (entriesOf front) (sku :: back) = .error error := by
  rw [addAll]
  cases rejects with
  | nameless absent =>
      have unnamed : sku.textField? "skuId" = none :=
        Option.eq_none_iff_forall_not_mem.mpr fun id here => absent id (hasSku_iff.mpr here)
      rw [unnamed]
  | repeated here before there =>
      have seen := isSome_lookup_entriesOf.mpr ⟨_, before, there⟩
      rw [hasSku_iff.mp here]
      simp only [seen, if_true]

variable {catalog : Json}

/-- Documents that may all be indexed are. -/
theorem index_of_indexable (indexable : Indexable (entries catalog)) :
    index catalog = .ok (entriesOf (entries catalog)) := by
  have joined : addAll (entriesOf []) (entries catalog ++ []) = _ := addAll_append indexable
  rwa [List.append_nil] at joined

/-- Otherwise the first that may not is told. -/
theorem index_of_rejects {error : Error} (split : entries catalog = front ++ sku :: back)
    (indexable : Indexable front) (rejects : Rejects front sku error) :
    index catalog = .error error := by
  have joined : addAll (entriesOf []) (front ++ sku :: back) = _ := addAll_append indexable
  rw [List.nil_append, addAll_of_rejects rejects] at joined
  rw [index, split]
  exact joined

theorem index_eq_ok {skus : Index} : index catalog = .ok skus ↔
    Indexable (entries catalog) ∧ skus = entriesOf (entries catalog) := by
  constructor
  · intro accepted
    rcases indexable_or_rejects (entries catalog) with
      all | ⟨front, sku, back, error, split, before, rejects⟩
    · rw [index_of_indexable all] at accepted
      cases accepted
      exact ⟨all, rfl⟩
    · rw [index_of_rejects split before rejects] at accepted
      cases accepted
  · rintro ⟨all, rfl⟩
    exact index_of_indexable all

theorem index_eq_error {error : Error} : index catalog = .error error ↔
    ∃ front sku back, entries catalog = front ++ sku :: back ∧ Indexable front ∧
      Rejects front sku error := by
  constructor
  · intro refused
    rcases indexable_or_rejects (entries catalog) with
      all | ⟨front, sku, back, other, split, before, rejects⟩
    · rw [index_of_indexable all] at refused
      cases refused
    · rw [index_of_rejects split before rejects] at refused
      cases refused
      exact ⟨front, sku, back, split, before, rejects⟩
  · rintro ⟨front, sku, back, split, before, rejects⟩
    exact index_of_rejects split before rejects

end Documents

/-- **Which catalogs have an index, and what it finds.** The documents of a catalog are its list at
`skus`, or none. It has an index exactly if each of them has an id and no two the same one. The
index then leads from each id to the document that has it, unchanged, and from no other id; a
catalog with the same documents in another order has an index that leads to the same documents. Any
other catalog is refused for its first document that has no id, or the id of one in front of it,
which the message then names. -/
theorem index_decides (catalog : Json) :
    Lists catalog (entries catalog) ∧
    ((∃ skus, index catalog = .ok skus) ↔ Indexable (entries catalog)) ∧
    (∀ skus, index catalog = .ok skus →
      (∀ id sku, skus.lookup id = some sku ↔ sku ∈ entries catalog ∧ HasSku sku id) ∧
      skus.map Prod.snd = entries catalog ∧
      ∀ other, (entries other).Perm (entries catalog) →
        ∃ reordered, index other = .ok reordered ∧ reordered.Perm skus ∧
          ∀ id, reordered.lookup id = skus.lookup id) ∧
    (∀ error, index catalog = .error error ↔
      ∃ front sku back, entries catalog = front ++ sku :: back ∧ Indexable front ∧
        Rejects front sku error) ∧
    ∀ id, (Error.pricing (.duplicateSku id)).message = "pricing error: Duplicate skuId " ++ id := by
  refine ⟨lists_entries catalog, ?_, ?_, fun error => index_eq_error, ?_⟩
  · simp only [index_eq_ok, exists_and_left, exists_eq, and_true]
  · intro skus accepted
    obtain ⟨all, rfl⟩ := index_eq_ok.mp accepted
    refine ⟨fun id sku => lookup_entriesOf all, map_snd_entriesOf all.named, ?_⟩
    intro other same
    have all' := all.perm same
    refine ⟨_, index_of_indexable all', same.filterMap _, fun id => Option.ext fun sku => ?_⟩
    rw [lookup_entriesOf all', lookup_entriesOf all, same.mem_iff]
  · intro id
    exact (String.append_assoc ..).symm

end GridReport.Sku
