import GridReport.Json.Reader
import Mathlib.Data.List.Nodup

/-!
The keys of documents.

* `sets_setField` — setting a field changes its value in its place, or adds it at the end.
* `lookup_setField`, `setField_setField` — what is found afterwards, and the last of two settings.
* `parse_distinct` — in a document that has been read no object holds a key twice, at any depth.

The second statement goes through the reader step by step: `Gives holds reader` says that whatever
the reader gives satisfies `holds`.
-/

namespace GridReport.Json

/-! ### Setting a field -/

/-- The fields with the key set: in its place if it is there, at the end if it is not, and nothing
else changed. -/
inductive Sets (key : String) (value : Json) :
    List (String × Json) → List (String × Json) → Prop where
  | inPlace {front back : List (String × Json)} {old : Json}
      (first : ∀ field ∈ front, field.1 ≠ key) :
      Sets key value (front ++ (key, old) :: back) (front ++ (key, value) :: back)
  | atEnd {fields : List (String × Json)} (absent : ∀ field ∈ fields, field.1 ≠ key) :
      Sets key value fields (fields ++ [(key, value)])

theorem Sets.cons {key : String} {value : Json} {before after : List (String × Json)}
    (h : Sets key value before after) {field : String × Json} (other : field.1 ≠ key) :
    Sets key value (field :: before) (field :: after) := by
  cases h with
  | inPlace first => exact .inPlace (List.forall_mem_cons.mpr ⟨other, first⟩)
  | atEnd absent => exact .atEnd (List.forall_mem_cons.mpr ⟨other, absent⟩)

/-- Setting a field does what `Sets` says of it. -/
theorem sets_setField (key : String) (value : Json) (fields : List (String × Json)) :
    Sets key value fields (setField key value fields) := by
  induction fields with
  | nil => exact .atEnd (List.forall_mem_nil _)
  | cons field rest ih =>
      rw [setField]
      split
      · rename_i same
        obtain ⟨found, old⟩ := field
        obtain rfl : found = key := same
        exact .inPlace (List.forall_mem_nil _)
      · rename_i other
        exact ih.cons other

theorem lookup_field (key found : String) (value : Json) (rest : List (String × Json)) :
    ((found, value) :: rest).lookup key =
      if key = found then some value else rest.lookup key := by
  rw [List.lookup_cons]
  by_cases h : key = found
  · rw [if_pos h, beq_iff_eq.mpr h]
  · rw [if_neg h, beq_eq_false_iff_ne.mpr h]

/-- The field that was set holds the new value, and any other its own. -/
theorem lookup_setField (key other : String) (value : Json) (fields : List (String × Json)) :
    (setField key value fields).lookup other =
      if other = key then some value else fields.lookup other := by
  induction fields with
  | nil => rw [setField, lookup_field]
  | cons field rest ih =>
      obtain ⟨found, old⟩ := field
      rw [setField]
      by_cases hfound : found = key
      · subst hfound
        rw [if_pos rfl, lookup_field, lookup_field]
        split
        · rfl
        · rfl
      · rw [if_neg hfound, lookup_field, lookup_field, ih]
        by_cases h : other = found
        · subst h
          rw [if_pos rfl, if_neg hfound, if_pos rfl]
        · rw [if_neg h, if_neg h]

/-- Of two settings of a field the second one counts. -/
theorem setField_setField (key : String) (old value : Json) (fields : List (String × Json)) :
    setField key value (setField key old fields) = setField key value fields := by
  induction fields with
  | nil => simp [setField]
  | cons field rest ih =>
      by_cases hfound : field.1 = key
      · simp [setField, hfound]
      · simp [setField, hfound, ih]

/-- The keys stay, in their order; a new one comes last. -/
theorem Sets.keys {key : String} {value : Json} {before after : List (String × Json)}
    (h : Sets key value before after) :
    after.map Prod.fst =
      if key ∈ before.map Prod.fst then before.map Prod.fst
      else before.map Prod.fst ++ [key] := by
  cases h with
  | inPlace first => simp
  | atEnd absent =>
      have new : key ∉ before.map Prod.fst := fun h => by
        obtain ⟨field, hfield, same⟩ := List.mem_map.mp h
        exact absent field hfield same
      rw [if_neg new, List.map_append, List.map_singleton]

/-- Keys that are distinct stay distinct. -/
theorem Sets.nodup {key : String} {value : Json} {before after : List (String × Json)}
    (h : Sets key value before after) (distinct : (before.map Prod.fst).Nodup) :
    (after.map Prod.fst).Nodup := by
  rw [h.keys]
  split
  · exact distinct
  · rename_i new
    refine List.nodup_append.mpr ⟨distinct, List.nodup_singleton key, ?_⟩
    rintro found hfound _ hkey rfl
    exact new (List.mem_singleton.mp hkey ▸ hfound)

/-- What holds of a new value and of all others holds of all fields afterwards. -/
theorem forall_setField {holds : Json → Prop} {key : String} {value : Json}
    {fields : List (String × Json)} (new : holds value)
    (old : ∀ field ∈ fields, holds field.2) :
    ∀ field ∈ setField key value fields, holds field.2 := by
  induction fields with
  | nil => simpa [setField] using new
  | cons field rest ih =>
      have inRest := fun field h => old field (List.mem_cons_of_mem _ h)
      rw [setField]
      split
      · exact List.forall_mem_cons.mpr ⟨new, inRest⟩
      · exact List.forall_mem_cons.mpr ⟨old field List.mem_cons_self, ih inRest⟩

/-! ### Documents without repeated keys -/

/-- No object in the document holds a key twice. -/
inductive Distinct : Json → Prop where
  | scalar {document : Json} (noItems : document.items? = none)
      (noFields : document.fields? = none) : Distinct document
  | list {items : List Json} (each : ∀ item ∈ items, Distinct item) : Distinct (.list items)
  | object {fields : List (String × Json)} (keys : (fields.map Prod.fst).Nodup)
      (each : ∀ field ∈ fields, Distinct field.2) : Distinct (.object fields)

/-- The value of a field has distinct keys, too. -/
theorem Distinct.field {document value : Json} {key : String} (distinct : Distinct document)
    (there : document.field? key = some value) : Distinct value := by
  cases distinct with
  | scalar _ noFields =>
      rw [field?, noFields] at there
      cases there
  | list each => cases there
  | object keys each =>
      obtain ⟨front, back, rfl, -⟩ := List.lookup_eq_some_iff.mp there
      exact each (key, value) (List.mem_append_right _ List.mem_cons_self)

/-- What the reader gives satisfies the property. -/
def Gives {α : Type} (holds : α → Prop) (reader : Reader α) : Prop :=
  ∀ cursor a after, reader cursor = .ok (a, after) → holds a

namespace Gives

variable {α β : Type} {P : α → Prop} {Q : β → Prop}

theorem pure {a : α} (h : P a) : Gives P (Pure.pure a : Reader α) := by
  intro cursor b after given
  cases given
  exact h

/-- The second reader may rely on what the first one gives. -/
theorem bind {reader : Reader α} {next : α → Reader β} (first : Gives P reader)
    (second : ∀ a, P a → Gives Q (next a)) : Gives Q (reader >>= next) := by
  intro cursor b after given
  change (reader cursor >>= fun (a, middle) => next a middle) = .ok (b, after) at given
  cases hfirst : reader cursor with
  | error stop =>
      rw [hfirst] at given
      cases given
  | ok step =>
      rw [hfirst] at given
      exact second step.1 (first cursor step.1 step.2 hfirst) step.2 b after given

/-- A step whose result does not matter. -/
theorem after {reader : Reader α} {next : α → Reader β} (second : ∀ a, Gives Q (next a)) :
    Gives Q (reader >>= next) :=
  bind (P := fun _ => True) (fun _ _ _ _ => trivial) fun a _ => second a

theorem throw {stop : Stop} : Gives P (throw stop : Reader α) := fun _ _ _ given => by cases given

theorem stopNext {reason : Reason} : Gives P (stopNext reason : Reader α) :=
  after fun _ => throw

theorem stopHere {reason : Reason} : Gives P (stopHere reason : Reader α) :=
  after fun _ => throw

end Gives

theorem gives_realNumber (negative : Bool) (significand : Nat) (exponent : Int) :
    Gives Distinct (realNumber negative significand exponent) := by
  unfold realNumber
  split
  · exact .stopHere
  · exact .pure (.scalar rfl rfl)

/-- A number has no keys. -/
theorem distinct_integer (negative : Bool) (magnitude : Nat) :
    Distinct (integer negative magnitude) := by
  unfold integer
  split
  · split
    · exact .scalar rfl rfl
    · exact .scalar rfl rfl
  · exact .scalar rfl rfl

theorem gives_unsignedNumber (negative : Bool) : Gives Distinct (unsignedNumber negative) := by
  unfold unsignedNumber
  refine .after fun digits => .after fun decimals => .after fun power => ?_
  split
  · exact .pure (.scalar rfl rfl)
  · exact gives_realNumber _ _ _
  · split
    · exact .pure (distinct_integer _ _)
    · exact gives_realNumber _ _ _

theorem gives_numeral : Gives Distinct numeral := by
  unfold numeral
  refine .after fun sign => ?_
  split
  · exact .after fun _ => gives_unsignedNumber true
  · exact gives_unsignedNumber false

section Nested

variable {element : Reader Json}

/-- The items of a list are read one after another. -/
theorem gives_itemsFrom (inner : Gives Distinct element) (fuel : Nat) (first : Bool)
    {done : List Json} (each : ∀ item ∈ done, Distinct item) :
    Gives (fun items => ∀ item ∈ items, Distinct item) (itemsFrom element first done fuel) := by
  induction fuel generalizing first done with
  | zero => exact .stopNext
  | succ fuel ih =>
      have next : Gives (fun items => ∀ item ∈ items, Distinct item)
          (element >>= fun item => itemsFrom element false (item :: done) fuel) :=
        inner.bind fun item hitem => ih false (List.forall_mem_cons.mpr ⟨hitem, each⟩)
      rw [itemsFrom]
      refine .after fun c => ?_
      split
      · exact .stopNext
      · exact .after fun _ => .pure fun item hitem => each item (List.mem_reverse.mp hitem)
      · split
        · exact next
        · split
          · refine .after fun _ => .after fun d => ?_
            split
            · exact .stopNext
            · exact .stopNext
            · exact next
          · exact .stopNext

/-- A field that comes again takes its old place, so no key is there twice. -/
theorem gives_fieldsFrom (inner : Gives Distinct element) (fuel : Nat) (first : Bool)
    {done : List (String × Json)} (so_far : Distinct (.object done)) :
    Gives (fun fields => Distinct (.object fields)) (fieldsFrom element first done fuel) := by
  induction fuel generalizing first done with
  | zero => exact .stopNext
  | succ fuel ih =>
      rw [fieldsFrom]
      refine .after fun more => ?_
      split
      · refine .after fun key => .after fun _ => inner.bind fun item hitem => ih false ?_
        cases so_far with
        | scalar _ noFields => cases noFields
        | object keys each =>
            exact .object ((sets_setField key item _).nodup keys) (forall_setField hitem each)
      · exact .pure so_far

end Nested

theorem gives_valueWith {element : Option (Reader Json)}
    (inner : ∀ item ∈ element, Gives Distinct item) : Gives Distinct (valueWith element) := by
  unfold valueWith
  refine .after fun c => ?_
  split
  · exact .stopNext
  · exact .after fun _ => .pure (.scalar rfl rfl)
  · exact .after fun _ => .pure (.scalar rfl rfl)
  · exact .after fun _ => .pure (.scalar rfl rfl)
  · exact .after fun _ => .after fun _ => .pure (.scalar rfl rfl)
  · cases element with
    | none => exact .stopNext
    | some item =>
        refine .after fun _ => .after fun cursor => ?_
        exact (gives_itemsFrom (inner item rfl) _ true (List.forall_mem_nil _)).bind
          fun items each => .pure (.list each)
  · cases element with
    | none => exact .stopNext
    | some item =>
        refine .after fun _ => .after fun cursor => ?_
        have nothing : Distinct (.object []) := .object List.nodup_nil (List.forall_mem_nil _)
        exact (gives_fieldsFrom (inner item rfl) _ true nothing).bind
          fun fields distinct => .pure distinct
  · split
    · exact gives_numeral
    · exact .stopNext

/-- A value that is read, at any depth, has no key twice. -/
theorem gives_value (depth : Nat) : Gives Distinct (value depth) := by
  induction depth with
  | zero => exact gives_valueWith fun _ h => by cases h
  | succ depth ih => exact gives_valueWith fun _ h => by cases h; exact ih

theorem readAll_ok {α : Type} {holds : α → Prop} {reader : Reader α} (gives : Gives holds reader)
    {text : String} {a : α} (h : readAll reader text = .ok a) : holds a := by
  have whole : Gives holds (do
      let result ← reader
      if (← peekPastSpace).isSome then stopNext .trailingCharacters else return result) := by
    refine gives.bind fun result hresult => .after fun c => ?_
    split
    · exact .stopNext
    · exact .pure hresult
  rw [readAll] at h
  split at h
  · rename_i result cursor given
    cases h
    exact whole _ _ _ given
  · cases h

/-- A document that has been read holds no key twice in one object. -/
theorem parse_distinct {text : String} {document : Json} (h : parse text = .ok document) :
    Distinct document :=
  readAll_ok (gives_value greatestDepth) h

end GridReport.Json
