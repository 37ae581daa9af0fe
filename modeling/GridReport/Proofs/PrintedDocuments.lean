import GridReport.Json.Printer
import GridReport.Proofs.NumberTexts

/-!
What the text of a document tells.

* `eq_of_quote` — a text in quotes is told by its quotation.
* `toList_prettyAt`, `toList_compact` — both forms of a document are one writer with different
  blanks.
* `Printable.told` — a document with finite numbers is told by its text, in any form and whatever
  follows it.
* `Prints.unique` — no text is that of two documents with finite numbers.

A number that is not finite is written as `null`, so documents with such numbers are left out. The
first character of a value says its kind; within a kind the parts are told one after another, where
a comma, a bracket or a blank ends what is in front of it.
-/

namespace GridReport.Json

/-! ### Texts in quotes -/

/-- The value of a digit in base sixteen. -/
def hexValue (digit : Char) : ℕ :=
  if digit.isDigit then digit.toNat - 48 else digit.toNat - 87

theorem hexValue_hexDigit :
    ∀ n < 32, 16 * hexValue (hexDigit (n / 16)) + hexValue (hexDigit (n % 16)) = n := by
  decide

/-- The text that an escape stands for, with what follows the escape. -/
def unescape : List Char → Option (Char × List Char)
  | 'n' :: rest => some ('\n', rest)
  | 'r' :: rest => some ('\r', rest)
  | 't' :: rest => some ('\t', rest)
  | 'b' :: rest => some ('\x08', rest)
  | 'f' :: rest => some ('\x0c', rest)
  | 'u' :: _ :: _ :: high :: low :: rest =>
    some (Char.ofNat (16 * hexValue high + hexValue low), rest)
  | c :: rest => some (c, rest)
  | [] => none

/-- Takes one character of a text in quotes. -/
def takeChar : List Char → Option (Char × List Char)
  | '\\' :: rest => unescape rest
  | c :: rest => some (c, rest)
  | [] => none

/-- An escaped character is taken as itself. -/
theorem takeChar_escapeChar (c : Char) (rest : List Char) :
    takeChar (escapeChar c ++ rest) = some (c, rest) := by
  unfold escapeChar
  split_ifs <;> try (subst_vars; rfl)
  · rename_i control
    have value := hexValue_hexDigit c.toNat control
    have taken : takeChar (['\\', 'u', '0', '0', hexDigit (c.toNat / 16),
        hexDigit (c.toNat % 16)] ++ rest) = some (Char.ofNat (16 * hexValue
          (hexDigit (c.toNat / 16)) + hexValue (hexDigit (c.toNat % 16))), rest) := rfl
    rw [taken, value, Char.ofNat_toNat]
  · rename_i _ plain _ _ _ _ _ _
    rw [List.singleton_append, takeChar]
    exact plain

/-- No escape starts with a quote. -/
theorem escapeChar_append_ne (c : Char) (after rest : List Char) :
    escapeChar c ++ after ≠ '\x22' :: rest := by
  intro same
  have taken := takeChar_escapeChar c after
  rw [same] at taken
  obtain ⟨rfl, rfl⟩ := Prod.mk.inj (Option.some.inj taken)
  cases same

/-- A text ends at the first quote that is not escaped. -/
theorem eq_of_escaped {a b rest rest' : List Char}
    (same : a.flatMap escapeChar ++ '\x22' :: rest = b.flatMap escapeChar ++ '\x22' :: rest') :
    a = b ∧ rest = rest' := by
  induction a generalizing b with
  | nil =>
      cases b with
      | nil => exact ⟨rfl, List.tail_eq_of_cons_eq same⟩
      | cons c b =>
          rw [List.flatMap_cons, List.append_assoc] at same
          exact absurd same.symm (escapeChar_append_ne c _ _)
  | cons c a ih =>
      rw [List.flatMap_cons, List.append_assoc] at same
      cases b with
      | nil => exact absurd same (escapeChar_append_ne c _ _)
      | cons c' b =>
          rw [List.flatMap_cons, List.append_assoc] at same
          have taken := takeChar_escapeChar c (a.flatMap escapeChar ++ '\x22' :: rest)
          rw [same, takeChar_escapeChar] at taken
          obtain ⟨rfl, others⟩ := Prod.mk.inj (Option.some.inj taken)
          obtain ⟨rfl, rests⟩ := ih others.symm
          exact ⟨rfl, rests⟩

/-- A quoted text is its escaped characters between two marks. -/
theorem toList_quote (value : String) :
    (quote value).toList = '\x22' :: (value.toList.flatMap escapeChar ++ ['\x22']) := by
  simp [quote]

/-- Texts are told by their quotation, whatever follows it. -/
theorem eq_of_quote {a b : String} {rest rest' : List Char}
    (same : (quote a).toList ++ rest = (quote b).toList ++ rest') : a = b ∧ rest = rest' := by
  rw [toList_quote, toList_quote, List.cons_append, List.cons_append, List.append_assoc,
    List.append_assoc] at same
  obtain ⟨chars, rests⟩ := eq_of_escaped (List.tail_eq_of_cons_eq same)
  exact ⟨String.toList_inj.mp chars, rests⟩

/-! ### One writer for both forms -/

/-- The blanks between the pieces of a document: those in front of an item or a closing bracket at a
depth of nesting, and those after a colon. -/
structure Spacing where
  gap : ℕ → List Char
  pause : List Char

namespace Spacing

/-- Nothing in between. -/
def none : Spacing := ⟨fun _ => [], []⟩

/-- A line for each item, and a blank after each colon. -/
def lines : Spacing := ⟨fun depth => '\n' :: List.replicate (2 * depth) ' ', [' ']⟩

/-- The blanks are blanks. -/
structure Blank (s : Spacing) : Prop where
  gap : ∀ depth, ∀ c ∈ s.gap depth, c = ' ' ∨ c = '\n'
  pause : ∀ c ∈ s.pause, c = ' ' ∨ c = '\n'

theorem blank_none : none.Blank := ⟨fun _ _ h => absurd h List.not_mem_nil,
  fun _ h => absurd h List.not_mem_nil⟩

theorem blank_lines : lines.Blank where
  gap := by
    intro depth c h
    rcases List.mem_cons.mp h with rfl | h
    · exact .inr rfl
    · exact .inl (List.eq_of_mem_replicate h)
  pause := fun c h => .inl (List.mem_singleton.mp h)

end Spacing

mutual

/-- The characters of a value at a depth of nesting. -/
def spaced (s : Spacing) (depth : ℕ) : Json → List Char
  | list [] => ['[', ']']
  | list items => '[' :: (spacedItems s (depth + 1) items ++ s.gap depth ++ [']'])
  | object [] => ['\x7b', '\x7d']
  | object fields => '\x7b' :: (spacedFields s (depth + 1) fields ++ s.gap depth ++ ['\x7d'])
  | other => (scalar other).toList

/-- The characters of items. -/
def spacedItems (s : Spacing) (depth : ℕ) : List Json → List Char
  | [] => []
  | [item] => s.gap depth ++ spaced s depth item
  | item :: rest => s.gap depth ++ spaced s depth item ++ ',' :: spacedItems s depth rest

/-- The characters of fields. -/
def spacedFields (s : Spacing) (depth : ℕ) : List (String × Json) → List Char
  | [] => []
  | [(key, value)] =>
    s.gap depth ++ (quote key).toList ++ ':' :: (s.pause ++ spaced s depth value)
  | (key, value) :: rest =>
    s.gap depth ++ (quote key).toList ++ ':' :: (s.pause ++ spaced s depth value) ++
      ',' :: spacedFields s depth rest

end

/-- What stands behind an opening bracket, the closing one included. -/
def enclosed (s : Spacing) (depth : ℕ) (bracket : Char) (empty : Bool) (inner : List Char) :
    List Char :=
  if empty then [bracket] else inner ++ s.gap depth ++ [bracket]

theorem spaced_list (s : Spacing) (depth : ℕ) (items : List Json) :
    spaced s depth (list items) =
      '[' :: enclosed s depth ']' items.isEmpty (spacedItems s (depth + 1) items) := by
  cases items with
  | nil =>
      rw [spaced]
      rfl
  | cons item rest =>
      rw [spaced]
      · rfl
      · simp

theorem spaced_object (s : Spacing) (depth : ℕ) (fields : List (String × Json)) :
    spaced s depth (object fields) =
      '\x7b' :: enclosed s depth '\x7d' fields.isEmpty (spacedFields s (depth + 1) fields) := by
  cases fields with
  | nil =>
      rw [spaced]
      rfl
  | cons field rest =>
      rw [spaced]
      · rfl
      · simp

mutual

/-- Pretty printing is one spacing, -/
theorem toList_prettyAt (depth : ℕ) : (document : Json) →
    (prettyAt depth document).toList = spaced .lines depth document
  | list [] => by
      rw [prettyAt, spaced]
      rfl
  | list (item :: items) => by
      rw [prettyAt, spaced]
      · simp [toList_prettyItems (depth + 1) (item :: items), newLine, Spacing.lines]
      · simp
      · simp
  | object [] => by
      rw [prettyAt, spaced]
      rfl
  | object (field :: fields) => by
      rw [prettyAt, spaced]
      · simp [toList_prettyFields (depth + 1) (field :: fields), newLine, Spacing.lines]
      · simp
      · simp
  | null => rfl
  | bool value => rfl
  | int value => rfl
  | real value => rfl
  | text value => rfl

theorem toList_prettyItems (depth : ℕ) : (items : List Json) →
    (prettyItems depth items).toList = spacedItems .lines depth items
  | [] => rfl
  | [item] => by
      rw [prettyItems, spacedItems, String.toList_append, toList_prettyAt depth item]
      simp [newLine, Spacing.lines]
  | item :: next :: rest => by
      rw [prettyItems, spacedItems]
      · simp [toList_prettyAt depth item, toList_prettyItems depth (next :: rest), newLine,
          Spacing.lines]
      · simp
      · simp

theorem toList_prettyFields (depth : ℕ) : (fields : List (String × Json)) →
    (prettyFields depth fields).toList = spacedFields .lines depth fields
  | [] => rfl
  | [(key, value)] => by
      rw [prettyFields, spacedFields]
      simp [toList_prettyAt depth value, newLine, Spacing.lines]
  | (key, value) :: next :: rest => by
      rw [prettyFields, spacedFields]
      · simp [toList_prettyAt depth value, toList_prettyFields depth (next :: rest), newLine,
          Spacing.lines]
      · simp
      · simp

end

mutual

/-- On one line the depth does not count. -/
theorem toList_compact (depth : ℕ) : (document : Json) →
    (compact document).toList = spaced .none depth document
  | list [] => by
      rw [compact, spaced, compactItems]
      rfl
  | list (item :: items) => by
      rw [compact, spaced]
      · simp [toList_compactItems (depth + 1) (item :: items), Spacing.none]
      · simp
  | object [] => by
      rw [compact, spaced, compactFields]
      rfl
  | object (field :: fields) => by
      rw [compact, spaced]
      · simp [toList_compactFields (depth + 1) (field :: fields), Spacing.none]
      · simp
  | null => rfl
  | bool value => rfl
  | int value => rfl
  | real value => rfl
  | text value => rfl

/-- and compact printing is another. -/
theorem toList_compactItems (depth : ℕ) : (items : List Json) →
    (compactItems items).toList = spacedItems .none depth items
  | [] => rfl
  | [item] => by
      rw [compactItems, spacedItems, toList_compact depth item]
      rfl
  | item :: next :: rest => by
      rw [compactItems, spacedItems]
      · simp [toList_compact depth item, toList_compactItems depth (next :: rest), Spacing.none]
      · simp
      · simp

theorem toList_compactFields (depth : ℕ) : (fields : List (String × Json)) →
    (compactFields fields).toList = spacedFields .none depth fields
  | [] => rfl
  | [(key, value)] => by
      rw [compactFields, spacedFields]
      simp [toList_compact depth value, Spacing.none]
  | (key, value) :: next :: rest => by
      rw [compactFields, spacedFields]
      · simp [toList_compact depth value, toList_compactFields depth (next :: rest), Spacing.none]
      · simp
      · simp

end

/-! ### Documents that can be told from their text -/

/-- All real numbers of the document are finite, at any depth. -/
inductive Printable : Json → Prop where
  | null : Printable null
  | bool (value : Bool) : Printable (bool value)
  | int (value : ℤ) : Printable (int value)
  | real {value : Float} (finite : value.isFinite) : Printable (real value)
  | text (value : String) : Printable (text value)
  | list {items : List Json} (each : ∀ item ∈ items, Printable item) : Printable (list items)
  | object {fields : List (String × Json)} (each : ∀ field ∈ fields, Printable field.2) :
      Printable (object fields)

/-- What the first character of a value says about it. -/
inductive Kind where
  | null
  | yes
  | no
  | number
  | text
  | list
  | object
deriving DecidableEq

/-- The kind of a value. -/
def kindOf : Json → Kind
  | .null => .null
  | .bool true => .yes
  | .bool false => .no
  | .int _ => .number
  | .real _ => .number
  | .text _ => .text
  | .list _ => .list
  | .object _ => .object

/-- The values of a kind. -/
def Kind.Covers : Kind → Json → Prop
  | .null, document => document = .null
  | .yes, document => document = .bool true
  | .no, document => document = .bool false
  | .number, document => (∃ value, document = .int value) ∨ ∃ value, document = .real value
  | .text, document => ∃ value, document = .text value
  | .list, document => ∃ items, document = .list items
  | .object, document => ∃ fields, document = .object fields

/-- The first character tells what kind of value follows. -/
theorem covers_kindOf (document : Json) : (kindOf document).Covers document := by
  cases document with
  | null => exact rfl
  | bool value => cases value <;> exact rfl
  | int value => exact .inl ⟨value, rfl⟩
  | real value => exact .inr ⟨value, rfl⟩
  | text value => exact ⟨value, rfl⟩
  | list items => exact ⟨items, rfl⟩
  | object fields => exact ⟨fields, rfl⟩

/-- The kind of the value that starts with a character. -/
def kindOfChar (c : Char) : Option Kind :=
  if c = 'n' then some .null
  else if c = 't' then some .yes
  else if c = 'f' then some .no
  else if c = '-' || c.isDigit then some .number
  else if c = '\x22' then some .text
  else if c = '[' then some .list
  else if c = '\x7b' then some .object
  else none

theorem kindOfChar_number {c : Char} (h : c = '-' ∨ c.isDigit) : kindOfChar c = some .number := by
  rcases h with rfl | digit
  · rfl
  · have other : c ≠ 'n' ∧ c ≠ 't' ∧ c ≠ 'f' := by
      refine ⟨?_, ?_, ?_⟩
      · rintro rfl
        cases digit
      · rintro rfl
        cases digit
      · rintro rfl
        cases digit
    simp [kindOfChar, other, digit]

/-- A value is of the kind that its first character says. -/
theorem head_spaced (s : Spacing) (depth : ℕ) {document : Json} (printable : Printable document) :
    ∃ c rest, spaced s depth document = c :: rest ∧ kindOfChar c = some (kindOf document) := by
  cases printable with
  | null => exact ⟨_, _, rfl, rfl⟩
  | bool value => cases value <;> exact ⟨_, _, rfl, rfl⟩
  | int value =>
      obtain ⟨spelling, chars, sound, -⟩ := Decimal.int_spelled value
      obtain ⟨c, rest, is, first⟩ := Decimal.Spelling.head_chars sound
      exact ⟨c, rest, chars.trans is, kindOfChar_number first⟩
  | real finite =>
      obtain ⟨spelling, chars, sound, -⟩ := Decimal.render_spelled finite
      obtain ⟨c, rest, is, first⟩ := Decimal.Spelling.head_chars sound
      refine ⟨c, rest, ?_, kindOfChar_number first⟩
      rw [spaced, scalar, if_pos finite]
      · exact chars.trans is
      all_goals simp
  | text value => exact ⟨_, _, toList_quote value, rfl⟩
  | list each => exact ⟨_, _, spaced_list s depth _, rfl⟩
  | object each => exact ⟨_, _, spaced_object s depth _, rfl⟩

/-! ### What follows a value -/

/-- What may follow a value: a comma, a closing bracket, a blank, or nothing. -/
def Follows (rest : List Char) : Prop :=
  ∀ c ∈ rest.head?, c = ',' ∨ c = ']' ∨ c = '\x7d' ∨ c = ' ' ∨ c = '\n'

/-- What may follow the last item of a list. -/
def Closes (rest : List Char) : Prop := Follows rest ∧ rest.head? ≠ some ','

theorem Follows.stops {rest : List Char} (follows : Follows rest) : Decimal.Stops rest := by
  intro c here
  rcases follows c here with rfl | rfl | rfl | rfl | rfl <;> decide

theorem follows_comma (rest : List Char) : Follows (',' :: rest) := by
  rintro c ⟨⟩
  exact .inl rfl

/-- What follows blanks is told, if it starts with none. -/
theorem eq_of_blanks {gap gap' rest rest' : List Char} (blank : ∀ c ∈ gap, c = ' ' ∨ c = '\n')
    (blank' : ∀ c ∈ gap', c = ' ' ∨ c = '\n') (starts : ∀ c ∈ rest.head?, c ≠ ' ' ∧ c ≠ '\n')
    (starts' : ∀ c ∈ rest'.head?, c ≠ ' ' ∧ c ≠ '\n') (same : gap ++ rest = gap' ++ rest') :
    rest = rest' := by
  have dropped : ∀ {gap rest : List Char}, (∀ c ∈ gap, c = ' ' ∨ c = '\n') →
      (∀ c ∈ rest.head?, c ≠ ' ' ∧ c ≠ '\n') →
      (gap ++ rest).dropWhile (fun c => c = ' ' ∨ c = '\n') = rest := by
    intro gap rest blank starts
    rw [List.dropWhile_append_of_pos (by simpa using blank)]
    cases rest with
    | nil => rfl
    | cons c rest =>
        obtain ⟨no_blank, no_line⟩ := starts c rfl
        simp [no_blank, no_line]
  rw [← dropped blank starts, same, dropped blank' starts']

/-! ### Items between commas -/

section Separated

variable {α : Type}

/-- The texts of items, separated by commas. -/
def separated (write : α → List Char) : List α → List Char
  | [] => []
  | [item] => write item
  | item :: rest => write item ++ ',' :: separated write rest

/-- Items are told apart by commas. -/
theorem separated_cons (write : α → List Char) (item next : α) (rest : List α) :
    separated write (item :: next :: rest) = write item ++ ',' :: separated write (next :: rest) :=
  rfl

/-- The first item comes first. -/
theorem exists_separated (write : α → List Char) (item : α) (rest : List α) :
    ∃ after, separated write (item :: rest) = write item ++ after := by
  cases rest with
  | nil => exact ⟨[], (List.append_nil _).symm⟩
  | cons next rest => exact ⟨_, separated_cons write item next rest⟩

/-- Items are told by their texts between commas, if each is told by its own. -/
theorem eq_of_separated {write write' : α → List Char} {items items' : List α}
    (each : ∀ a ∈ items, ∀ a' ∈ items', ∀ rest rest', Follows rest → Follows rest' →
      write a ++ rest = write' a' ++ rest' → a = a' ∧ rest = rest')
    (nonempty : items ≠ []) (nonempty' : items' ≠ []) {rest rest' : List Char}
    (closes : Closes rest) (closes' : Closes rest')
    (same : separated write items ++ rest = separated write' items' ++ rest') :
    items = items' ∧ rest = rest' := by
  induction items generalizing items' with
  | nil => exact absurd rfl nonempty
  | cons a items ih =>
      obtain ⟨a', others, rfl⟩ := List.exists_cons_of_ne_nil nonempty'
      have first := each a List.mem_cons_self a' List.mem_cons_self
      cases items with
      | nil =>
          cases others with
          | nil =>
              obtain ⟨rfl, rests⟩ := first _ _ closes.1 closes'.1 same
              exact ⟨rfl, rests⟩
          | cons b' others =>
              rw [separated_cons, List.append_assoc] at same
              obtain ⟨-, rests⟩ := first _ _ closes.1 (follows_comma _) same
              exact absurd (congrArg List.head? rests) closes.2
      | cons b items =>
          rw [separated_cons, List.append_assoc] at same
          cases others with
          | nil =>
              obtain ⟨-, rests⟩ := first _ _ (follows_comma _) closes'.1 same
              exact absurd (congrArg List.head? rests).symm closes'.2
          | cons b' others =>
              rw [separated_cons, List.append_assoc] at same
              obtain ⟨rfl, rests⟩ := first _ _ (follows_comma _) (follows_comma _) same
              obtain ⟨items_eq, rests⟩ := ih
                (fun c here c' here' =>
                  each c (List.mem_cons_of_mem _ here) c' (List.mem_cons_of_mem _ here'))
                (List.cons_ne_nil _ _) (List.cons_ne_nil _ _) (List.tail_eq_of_cons_eq rests)
              exact ⟨congrArg _ items_eq, rests⟩

end Separated

/-- A field in front of its value. -/
def spacedField (s : Spacing) (depth : ℕ) (field : String × Json) : List Char :=
  s.gap depth ++ ((quote field.1).toList ++ ':' :: (s.pause ++ spaced s depth field.2))

theorem spacedItems_eq (s : Spacing) (depth : ℕ) (items : List Json) :
    spacedItems s depth items =
      separated (fun item => s.gap depth ++ spaced s depth item) items := by
  induction items with
  | nil => rfl
  | cons item rest ih =>
      cases rest with
      | nil => rfl
      | cons next rest => rw [separated_cons, ← ih]; rfl

theorem spacedFields_eq (s : Spacing) (depth : ℕ) (fields : List (String × Json)) :
    spacedFields s depth fields = separated (spacedField s depth) fields := by
  induction fields with
  | nil => rfl
  | cons field rest ih =>
      obtain ⟨key, value⟩ := field
      cases rest with
      | nil => simp [spacedFields, separated, spacedField]
      | cons next rest =>
          rw [separated_cons, ← ih, spacedFields, spacedField]
          · simp
          · simp

/-! ### Reading a document off a text -/

section Told

variable {s s' : Spacing} {depth depth' : ℕ}

/-- The document is told by its text in any spacing, whatever follows it. -/
def Told (document : Json) : Prop :=
  ∀ {s s' : Spacing} {depth depth' : ℕ} {other : Json} {rest rest' : List Char}, s.Blank →
    s'.Blank → Printable other → Follows rest → Follows rest' →
    spaced s depth document ++ rest = spaced s' depth' other ++ rest' →
    document = other ∧ rest = rest'

/-- A document does not start with white space. -/
theorem starts_spaced (s : Spacing) (depth : ℕ) {document : Json} (printable : Printable document)
    (rest : List Char) :
    ∀ c ∈ (spaced s depth document ++ rest).head?, c ≠ ' ' ∧ c ≠ '\n' := by
  intro c here
  obtain ⟨first, others, is, kind⟩ := head_spaced s depth printable
  rw [is] at here
  cases here
  constructor
  · rintro rfl
    cases kind
  · rintro rfl
    cases kind

/-- The same text starts values of the same kind. -/
theorem covers_of_same {document other : Json} {rest rest' : List Char}
    (printable : Printable document) (printable' : Printable other)
    (same : spaced s depth document ++ rest = spaced s' depth' other ++ rest') :
    (kindOf document).Covers other := by
  obtain ⟨c, others, is, kind⟩ := head_spaced s depth printable
  obtain ⟨c', others', is', kind'⟩ := head_spaced s' depth' printable'
  rw [is, is'] at same
  obtain rfl := List.head_eq_of_cons_eq same
  rw [Option.some.inj (kind.symm.trans kind')]
  exact covers_kindOf other

/-- The items of a list, the bracket and what follows. -/
theorem told_items {items items' : List Json} (told : ∀ item ∈ items, Told item)
    (printable : ∀ item ∈ items, Printable item) (printable' : ∀ item ∈ items', Printable item)
    (blank : s.Blank) (blank' : s'.Blank) (nonempty : items ≠ []) (nonempty' : items' ≠ [])
    {rest rest' : List Char} (closes : Closes rest) (closes' : Closes rest')
    (same : spacedItems s depth items ++ rest = spacedItems s' depth' items' ++ rest') :
    items = items' ∧ rest = rest' := by
  rw [spacedItems_eq, spacedItems_eq] at same
  apply eq_of_separated _ nonempty nonempty' closes closes' same
  intro a here a' here' after after' follows follows' written
  simp only [List.append_assoc] at written
  have value := eq_of_blanks (blank.gap depth) (blank'.gap depth')
    (starts_spaced s depth (printable a here) after)
    (starts_spaced s' depth' (printable' a' here') after') written
  exact told a here blank blank' (printable' a' here') follows follows' value

/-- Fields are told by what is printed of them, if each of their values is. -/
theorem told_fields {fields fields' : List (String × Json)} (told : ∀ field ∈ fields, Told field.2)
    (printable : ∀ field ∈ fields, Printable field.2)
    (printable' : ∀ field ∈ fields', Printable field.2)
    (blank : s.Blank) (blank' : s'.Blank) (nonempty : fields ≠ []) (nonempty' : fields' ≠ [])
    {rest rest' : List Char} (closes : Closes rest) (closes' : Closes rest')
    (same : spacedFields s depth fields ++ rest = spacedFields s' depth' fields' ++ rest') :
    fields = fields' ∧ rest = rest' := by
  rw [spacedFields_eq, spacedFields_eq] at same
  apply eq_of_separated _ nonempty nonempty' closes closes' same
  intro a here a' here' after after' follows follows' written
  obtain ⟨key, value⟩ := a
  obtain ⟨key', value'⟩ := a'
  have quoted : ∀ (key : String) (more : List Char),
      ∀ c ∈ ((quote key).toList ++ more).head?, c ≠ ' ' ∧ c ≠ '\n' := by
    intro key more c first
    rw [toList_quote] at first
    cases first
    decide
  simp only [spacedField, List.append_assoc, List.cons_append] at written
  have keys := eq_of_blanks (blank.gap depth) (blank'.gap depth') (quoted _ _) (quoted _ _) written
  obtain ⟨rfl, colons⟩ := eq_of_quote keys
  have values := eq_of_blanks blank.pause blank'.pause
    (starts_spaced s depth (printable _ here) after)
    (starts_spaced s' depth' (printable' _ here') after') (List.tail_eq_of_cons_eq colons)
  obtain ⟨rfl, rests⟩ := told _ here blank blank' (printable' _ here') follows follows' values
  exact ⟨rfl, rests⟩

/-- A closing bracket, with the blanks in front of it, closes items. -/
theorem closes_gap {c : Char} (bracket : c = ']' ∨ c = '\x7d') (blank : s.Blank)
    (rest : List Char) : Closes (s.gap depth ++ c :: rest) := by
  have first : ∀ found ∈ (s.gap depth ++ c :: rest).head?,
      found = ' ' ∨ found = '\n' ∨ found = ']' ∨ found = '\x7d' := by
    intro found here
    cases gap : s.gap depth with
    | nil =>
        rw [gap] at here
        cases here
        exact .inr (.inr bracket)
    | cons blank_char others =>
        have blanks := blank.gap depth blank_char (gap ▸ List.mem_cons_self)
        rw [gap] at here
        cases here
        exact blanks.imp_right .inl
  constructor
  · intro found here
    rcases first found here with h | h | h | h
    · exact .inr (.inr (.inr (.inl h)))
    · exact .inr (.inr (.inr (.inr h)))
    · exact .inr (.inl h)
    · exact .inr (.inr (.inl h))
  · intro comma
    rcases first ',' comma with h | h | h | h <;> cases h

/-- What follows a bracket and the blanks in front of it is told. -/
theorem eq_of_bracket {c : Char} (bracket : c = ']' ∨ c = '\x7d') (blank : s.Blank)
    (blank' : s'.Blank) {rest rest' : List Char}
    (same : s.gap depth ++ c :: rest = s'.gap depth' ++ c :: rest') : rest = rest' := by
  have plain : ∀ rest : List Char, ∀ found ∈ (c :: rest).head?, found ≠ ' ' ∧ found ≠ '\n' := by
    rintro rest found ⟨⟩
    rcases bracket with rfl | rfl <;> decide
  exact List.tail_eq_of_cons_eq
    (eq_of_blanks (blank.gap depth) (blank'.gap depth') (plain rest) (plain rest') same)

/-- What starts with a bracket starts with no blanks and something else behind them. -/
theorem bracket_ne_append (blank : s.Blank) {bracket c : Char} {rest rest' : List Char}
    (plain : bracket ≠ ' ' ∧ bracket ≠ '\n') (plain' : c ≠ ' ' ∧ c ≠ '\n') (other : bracket ≠ c) :
    bracket :: rest ≠ s.gap depth ++ c :: rest' := by
  intro same
  have starts : ∀ found ∈ (bracket :: rest).head?, found ≠ ' ' ∧ found ≠ '\n' := by
    rintro found ⟨⟩
    exact plain
  have starts' : ∀ found ∈ (c :: rest').head?, found ≠ ' ' ∧ found ≠ '\n' := by
    rintro found ⟨⟩
    exact plain'
  have stripped := eq_of_blanks (fun _ h => absurd h List.not_mem_nil) (blank.gap depth) starts
    starts' same
  exact other (List.head_eq_of_cons_eq stripped)

/-- No item starts with a bracket that closes a list. -/
theorem bracket_ne_spacedItems (blank : s.Blank) {items : List Json} (nonempty : items ≠ [])
    (printable : ∀ item ∈ items, Printable item) (rest rest' : List Char) :
    ']' :: rest ≠ spacedItems s depth items ++ rest' := by
  obtain ⟨item, others, rfl⟩ := List.exists_cons_of_ne_nil nonempty
  have first := printable item List.mem_cons_self
  obtain ⟨c, more, is, kind⟩ := head_spaced s depth first
  obtain ⟨after, text⟩ :=
    exists_separated (fun item => s.gap depth ++ spaced s depth item) item others
  have plain := starts_spaced s depth first []
  rw [is] at plain
  rw [spacedItems_eq, text, is]
  simp only [List.append_assoc, List.cons_append]
  apply bracket_ne_append blank (by decide) (plain c rfl)
  rintro rfl
  cases kind

/-- No field starts with a bracket that closes an object. -/
theorem bracket_ne_spacedFields (blank : s.Blank) {fields : List (String × Json)}
    (nonempty : fields ≠ []) (rest rest' : List Char) :
    '\x7d' :: rest ≠ spacedFields s depth fields ++ rest' := by
  obtain ⟨field, others, rfl⟩ := List.exists_cons_of_ne_nil nonempty
  obtain ⟨after, text⟩ := exists_separated (spacedField s depth) field others
  rw [spacedFields_eq, text, spacedField, toList_quote]
  simp only [List.append_assoc, List.cons_append]
  exact bracket_ne_append blank (by decide) (by decide) (by decide)

/-- Items between brackets are told by the text behind the opening one, if they are told by their
own and this never starts with the closing one. -/
theorem eq_of_enclosed {α : Type} {items items' : List α} {c : Char} {inner inner' : List Char}
    (bracket : c = ']' ∨ c = '\x7d') (blank : s.Blank) (blank' : s'.Blank)
    (opens : items ≠ [] → ∀ rest rest', c :: rest ≠ inner ++ rest')
    (opens' : items' ≠ [] → ∀ rest rest', c :: rest ≠ inner' ++ rest')
    (told : items ≠ [] → items' ≠ [] → ∀ {rest rest' : List Char}, Closes rest → Closes rest' →
      inner ++ rest = inner' ++ rest' → items = items' ∧ rest = rest') {rest rest' : List Char}
    (same : enclosed s depth c items.isEmpty inner ++ rest =
      enclosed s' depth' c items'.isEmpty inner' ++ rest') :
    items = items' ∧ rest = rest' := by
  have filled : ∀ (s : Spacing) (depth : ℕ) (inner rest : List Char),
      enclosed s depth c false inner ++ rest = inner ++ (s.gap depth ++ c :: rest) := by
    intro s depth inner rest
    simp [enclosed]
  cases items with
  | nil =>
      cases items' with
      | nil => exact ⟨rfl, List.tail_eq_of_cons_eq same⟩
      | cons item' others' =>
          rw [List.isEmpty_cons, filled] at same
          exact absurd same (opens' (List.cons_ne_nil _ _) _ _)
  | cons item others =>
      rw [List.isEmpty_cons, filled] at same
      cases items' with
      | nil => exact absurd same.symm (opens (List.cons_ne_nil _ _) _ _)
      | cons item' others' =>
          rw [List.isEmpty_cons, filled] at same
          obtain ⟨items_eq, rests⟩ := told (List.cons_ne_nil _ _) (List.cons_ne_nil _ _)
            (closes_gap bracket blank rest) (closes_gap bracket blank' rest') same
          exact ⟨items_eq, eq_of_bracket bracket blank blank' rests⟩

/-- A list is told by its text if each of its items is. -/
theorem told_list {items : List Json} (told : ∀ item ∈ items, Told item)
    (printable : ∀ item ∈ items, Printable item) : Told (list items) := by
  intro s s' depth depth' other rest rest' blank blank' printable' follows follows' same
  obtain ⟨items', rfl⟩ : ∃ items', other = list items' :=
    covers_of_same (.list printable) printable' same
  cases printable' with
  | list printable' =>
      rw [spaced_list, spaced_list] at same
      obtain ⟨rfl, rests⟩ := eq_of_enclosed (.inl rfl) blank blank'
        (fun filled => bracket_ne_spacedItems blank filled printable)
        (fun filled => bracket_ne_spacedItems blank' filled printable')
        (told_items told printable printable' blank blank') (List.tail_eq_of_cons_eq same)
      exact ⟨rfl, rests⟩

/-- An object is told by its text if each of its values is. -/
theorem told_object {fields : List (String × Json)} (told : ∀ field ∈ fields, Told field.2)
    (printable : ∀ field ∈ fields, Printable field.2) : Told (object fields) := by
  intro s s' depth depth' other rest rest' blank blank' printable' follows follows' same
  obtain ⟨fields', rfl⟩ : ∃ fields', other = object fields' :=
    covers_of_same (.object printable) printable' same
  cases printable' with
  | object printable' =>
      rw [spaced_object, spaced_object] at same
      obtain ⟨rfl, rests⟩ := eq_of_enclosed (.inr rfl) blank blank'
        (bracket_ne_spacedFields blank) (bracket_ne_spacedFields blank')
        (told_fields told printable printable' blank blank') (List.tail_eq_of_cons_eq same)
      exact ⟨rfl, rests⟩

theorem spaced_real (s : Spacing) (depth : ℕ) {value : Float} (finite : value.isFinite) :
    spaced s depth (real value) = (Decimal.document.render value).toList := by
  rw [spaced, scalar, if_pos finite]
  all_goals simp

theorem told_null : Told null := by
  intro s s' depth depth' other rest rest' blank blank' printable' follows follows' same
  obtain rfl : other = null := covers_of_same .null printable' same
  exact ⟨rfl, List.append_cancel_left same⟩

theorem told_bool (value : Bool) : Told (bool value) := by
  intro s s' depth depth' other rest rest' blank blank' printable' follows follows' same
  have covers := covers_of_same (.bool value) printable' same
  cases value with
  | true =>
      obtain rfl : other = bool true := covers
      exact ⟨rfl, List.append_cancel_left same⟩
  | false =>
      obtain rfl : other = bool false := covers
      exact ⟨rfl, List.append_cancel_left same⟩

theorem told_int (value : ℤ) : Told (int value) := by
  intro s s' depth depth' other rest rest' blank blank' printable' follows follows' same
  obtain ⟨value', rfl⟩ | ⟨value', rfl⟩ : (∃ value', other = int value') ∨
      ∃ value', other = real value' := covers_of_same (.int value) printable' same
  · obtain ⟨rfl, rests⟩ := Decimal.eq_of_toString follows.stops follows'.stops same
    exact ⟨rfl, rests⟩
  · cases printable' with
    | real finite' =>
        rw [spaced_real _ _ finite'] at same
        exact absurd same (Decimal.toString_ne_render finite' follows.stops follows'.stops)

/-- A finite real is told by its digits. -/
theorem told_real {value : Float} (finite : value.isFinite) : Told (real value) := by
  intro s s' depth depth' other rest rest' blank blank' printable' follows follows' same
  obtain ⟨value', rfl⟩ | ⟨value', rfl⟩ : (∃ value', other = int value') ∨
      ∃ value', other = real value' := covers_of_same (.real finite) printable' same
  · rw [spaced_real _ _ finite] at same
    exact absurd same.symm (Decimal.toString_ne_render finite follows'.stops follows.stops)
  · cases printable' with
    | real finite' =>
        rw [spaced_real _ _ finite, spaced_real _ _ finite'] at same
        obtain ⟨rfl, rests⟩ :=
          Decimal.eq_of_render finite finite' follows.stops follows'.stops same
        exact ⟨rfl, rests⟩

/-- A text is told by its escaped characters. -/
theorem told_text (value : String) : Told (text value) := by
  intro s s' depth depth' other rest rest' blank blank' printable' follows follows' same
  obtain ⟨value', rfl⟩ : ∃ value', other = text value' :=
    covers_of_same (.text value) printable' same
  obtain ⟨rfl, rests⟩ := eq_of_quote same
  exact ⟨rfl, rests⟩

/-- **A document is told by its text**, in any spacing and whatever follows it, if its real numbers
are finite. -/
theorem Printable.told {document : Json} (printable : Printable document) : Told document := by
  induction printable with
  | list each ih => exact told_list ih each
  | object each ih => exact told_object ih each
  | null => exact told_null
  | bool value => exact told_bool value
  | int value => exact told_int value
  | real finite => exact told_real finite
  | text value => exact told_text value

end Told

/-- The text of a document, on one line or over several. -/
def Prints (document : Json) (text : String) : Prop :=
  text = pretty document ∨ text = compact document

theorem Prints.spacing {document : Json} {text : String} (prints : Prints document text) :
    ∃ s : Spacing, s.Blank ∧ text.toList = spaced s 0 document := by
  rcases prints with rfl | rfl
  · exact ⟨.lines, Spacing.blank_lines, toList_prettyAt 0 document⟩
  · exact ⟨.none, Spacing.blank_none, toList_compact 0 document⟩

/-- No text is that of two documents. -/
theorem Prints.unique {document other : Json} {text : String} (printable : Printable document)
    (printable' : Printable other) (prints : Prints document text) (prints' : Prints other text) :
    document = other := by
  obtain ⟨s, blank, chars⟩ := prints.spacing
  obtain ⟨s', blank', chars'⟩ := prints'.spacing
  have nothing : Follows [] := fun _ h => by cases h
  have same : spaced s 0 document ++ [] = spaced s' 0 other ++ [] := by rw [← chars, ← chars']
  exact (printable.told blank blank' printable' nothing nothing same).1

end GridReport.Json
