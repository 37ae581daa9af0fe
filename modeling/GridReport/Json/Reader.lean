import GridReport.Json.Number
import GridReport.Json.Quoted

/-!
Documents from text.

A value may be nested in 127 lists and objects. Of a key that is given twice the first place and
the last value stay.
-/

namespace GridReport.Json

/-- Takes the items of a list whose bracket has been taken; no more than `fuel` steps are left. -/
def itemsFrom (element : Reader Json) (first : Bool) (done : List Json) : Nat → Reader (List Json)
  | 0 => stopNext .endInList
  | fuel + 1 => do
    match ← peekPastSpace with
    | none => stopNext .endInList
    | some ']' => do
      advance
      return done.reverse
    | some c =>
      if first then do
        let item ← element
        itemsFrom element false (item :: done) fuel
      else if c = ',' then do
        advance
        match ← peekPastSpace with
        | none => stopNext .endInValue
        | some ']' => stopNext .trailingComma
        | some _ => do
          let item ← element
          itemsFrom element false (item :: done) fuel
      else stopNext .expectedCommaOrBracket

def colon : Reader Unit := do
  match ← peekPastSpace with
  | none => stopNext .endInObject
  | some ':' => advance
  | some _ => stopNext .expectedColon

/-- Takes the opening quote of a key, or the brace that ends the object. -/
def keyOrEnd (first : Bool) : Reader Bool := do
  match ← peekPastSpace with
  | none => stopNext .endInObject
  | some '\x7d' => do
    advance
    return false
  | some c =>
    let opening : Reader Bool := do
      match ← peekPastSpace with
      | none => stopNext .endInValue
      | some '\x22' => do
        advance
        return true
      | some '\x7d' => stopNext .trailingComma
      | some _ => stopNext .keyNotString
    if first then opening
    else if c = ',' then do
      advance
      opening
    else stopNext .expectedCommaOrBrace

/-- Takes the fields of an object whose brace has been taken; no more than `fuel` steps are left. -/
def fieldsFrom (element : Reader Json) (first : Bool) (done : List (String × Json)) :
    Nat → Reader (List (String × Json))
  | 0 => stopNext .endInObject
  | fuel + 1 => do
    if ← keyOrEnd first then do
      let key ← quotedRest
      colon
      let item ← element
      fieldsFrom element false (setField key item done) fuel
    else return done

/-- Takes a value whose items and fields, if it may have any, are read by `element`. -/
def valueWith (element : Option (Reader Json)) : Reader Json := do
  match ← peekPastSpace with
  | none => stopNext .endInValue
  | some 'n' => do
    word ['n', 'u', 'l', 'l']
    return .null
  | some 't' => do
    word ['t', 'r', 'u', 'e']
    return .bool true
  | some 'f' => do
    word ['f', 'a', 'l', 's', 'e']
    return .bool false
  | some '\x22' => do
    advance
    return .text (← quotedRest)
  | some '[' =>
    match element with
    | none => stopNext .tooDeep
    | some item => do
      advance
      return .list (← itemsFrom item true [] ((← get).rest.length + 1))
  | some '\x7b' =>
    match element with
    | none => stopNext .tooDeep
    | some item => do
      advance
      return .object (← fieldsFrom item true [] ((← get).rest.length + 1))
  | some c => if c = '-' || c.isDigit then numeral else stopNext .expectedValue

/-- Takes a value nested at most `depth` deep. -/
def value : Nat → Reader Json
  | 0 => valueWith none
  | depth + 1 => valueWith (some (value depth))

def greatestDepth : Nat := 127

def parse (text : String) : Except Fault Json := readAll (value greatestDepth) text

end GridReport.Json
