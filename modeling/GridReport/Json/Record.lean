import GridReport.Decimal.Layout
import GridReport.Json.Reader
import GridReport.Json.Skip

/-!
Records: documents with known fields of known types.

A record is read from an object, in any order of its fields and with unknown fields skipped, or from
a list of its field values in order. What has another type is read as far as its spelling needs it.
-/

namespace GridReport.Json

/-- A field of a record: its name and how its value is read. -/
structure Field where
  name : String
  read : Reader Json

/-- A record: its description in faults, and its fields. -/
structure Form where
  description : String
  fields : List Field

/-- The description of the record in a fault about the number of values. -/
def Form.counted (form : Form) : String :=
  let count := form.fields.length
  "struct " ++ form.description ++ " with " ++ toString count ++
    (if count = 1 then " element" else " elements")

/-- A real number in a fault; a whole one carries `.0`. -/
def spellReal (number : Float) : String :=
  let digits := Decimal.plain.render number
  if digits.toList.contains '.' then digits else digits ++ ".0"

/-- Takes a value of the wrong type as far as it has to be spelled. -/
def unexpected : Reader Unexpected := do
  match ← peekPastSpace with
  | none => stopNext .endInValue
  | some '[' => return .sequence
  | some '\x7b' => return .map
  | some _ =>
    match ← valueWith none with
    | .null => return .null
    | .bool given => return .boolean given
    | .int given => return .integer given
    | .real given => return .real (spellReal given)
    | .text given => return .text given
    | .list _ => return .sequence
    | .object _ => return .map

def refuse {α : Type} (expected : String) : Reader α := do
  let found ← unexpected
  stopHere (.invalidType found expected)

def textValue : Reader Json := do
  match ← peekPastSpace with
  | some '\x22' => do
    advance
    return .text (← quotedRest)
  | _ => refuse "a string"

def textsValue : Reader Json := do
  match ← peekPastSpace with
  | some '[' => do
    advance
    return .list (← itemsFrom textValue true [] ((← get).rest.length + 1))
  | _ => refuse "a sequence"

def valuesInOrder (form : Form) (done : List Json) : List Field → Reader (List Json)
  | [] => do
    match ← peekPastSpace with
    | some ']' => do
      advance
      return done.reverse
    | some ',' => do
      advance
      if (← peekPastSpace) == some ']' then stopNext .trailingComma
      else stopNext .trailingCharacters
    | some _ => stopNext .trailingCharacters
    | none => stopNext .endInList
  | field :: fields => do
    match ← peekPastSpace with
    | none => stopNext .endInList
    | some ']' => do
      advance
      stopHere (.invalidLength done.length form.counted)
    | some c =>
      if done.isEmpty then do
        let item ← field.read
        valuesInOrder form (item :: done) fields
      else if c = ',' then do
        advance
        match ← peekPastSpace with
        | none => stopNext .endInValue
        | some ']' => stopNext .trailingComma
        | some _ => do
          let item ← field.read
          valuesInOrder form (item :: done) fields
      else stopNext .expectedCommaOrBracket

/-- The values of the fields in order, or the first field that is missing. -/
def complete (found : List (String × Json)) : List Field → Except String (List Json)
  | [] => .ok []
  | field :: fields =>
    match found.lookup field.name with
    | none => .error field.name
    | some given => (complete found fields).map (given :: ·)

/-- Stops at a field given twice. The end of the object is looked for first. -/
def duplicate {α : Type} (name : String) : Reader α := do
  if (← peekPastSpace) == some '\x7d' then advance
  stopHere (.duplicateField name)

/-- Takes the fields of an object; no more than `fuel` steps are left. -/
def namedValues (form : Form) (found : List (String × Json)) : Nat → Reader (List Json)
  | 0 => stopNext .endInObject
  | fuel + 1 => do
    if ← keyOrEnd found.isEmpty then do
      let key ← quotedRest
      match form.fields.find? (·.name == key) with
      | some field => do
        if (found.lookup key).isSome then duplicate key
        colon
        let item ← field.read
        namedValues form (found ++ [(key, item)]) fuel
      | none => do
        colon
        skipValue
        namedValues form (found ++ [(key, .null)]) fuel
    else
      match complete found form.fields with
      | .ok items => return items
      | .error name => stopHere (.missingField name)

/-- Takes a record and gives its field values in order. -/
def record (form : Form) : Reader (List Json) := do
  match ← peekPastSpace with
  | some '[' => do
    advance
    valuesInOrder form [] form.fields
  | some '\x7b' => do
    advance
    namedValues form [] ((← get).rest.length + 1)
  | _ => refuse ("struct " ++ form.description)

end GridReport.Json
