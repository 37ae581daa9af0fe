/-!
Documents: values with ordered fields.

An object is a list of fields in the order in which their keys first appeared; setting a field that
is there keeps its place.
-/

namespace GridReport

/-- A document value. Whole numbers and real numbers are kept apart, as they are written apart. -/
inductive Json where
  | null
  | bool (value : Bool)
  | int (value : Int)
  | real (value : Float)
  | text (value : String)
  | list (items : List Json)
  | object (fields : List (String × Json))

namespace Json

/-- The fields with `key` set to `value`: in place if the key is there, at the end if it is not. -/
def setField (key : String) (value : Json) : List (String × Json) → List (String × Json)
  | [] => [(key, value)]
  | field :: rest =>
    if field.1 = key then (key, value) :: rest else field :: setField key value rest

def fields? : Json → Option (List (String × Json))
  | object fields => some fields
  | _ => none

/-- The value of a field; nothing else than an object has fields. -/
def field? (document : Json) (key : String) : Option Json :=
  document.fields?.bind (·.lookup key)

def text? : Json → Option String
  | text value => some value
  | _ => none

def items? : Json → Option (List Json)
  | list items => some items
  | _ => none

def textField? (document : Json) (key : String) : Option String :=
  (document.field? key).bind text?

def itemsField? (document : Json) (key : String) : Option (List Json) :=
  (document.field? key).bind items?

def number (value : Float) : Json := if value.isFinite then real value else null

end Json

end GridReport
