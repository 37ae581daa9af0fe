import GridReport.Json.Cursor

/-!
Texts in quotes, with their escapes.
-/

namespace GridReport.Json

/-- The value of a digit in base sixteen. -/
def hexValue? (c : Char) : Option Nat :=
  if c.isDigit then some (c.toNat - 48)
  else if 'a' ≤ c && c ≤ 'f' then some (c.toNat - 87)
  else if 'A' ≤ c && c ≤ 'F' then some (c.toNat - 55)
  else none

/-- Takes the four digits of a code unit. The next four bytes must be there, whatever they are. -/
def codeUnit : Reader Nat := do
  let cursor ← get
  let bytes := Text.width (cursor.rest.take 4)
  if bytes < 4 then throw ⟨.endInString, cursor.offset + bytes⟩
  match (cursor.rest.take 4).mapM hexValue? with
  | some digits => do
    set (Cursor.mk (cursor.offset + 4) (cursor.rest.drop 4))
    return digits.foldl (fun value digit => 16 * value + digit) 0
  | none => throw ⟨.invalidEscape, cursor.offset + 4⟩

/-- The code unit is the first half of a pair. -/
def isLeading (unit : Nat) : Bool := 0xD800 ≤ unit && unit ≤ 0xDBFF

/-- The code unit is the second half of a pair. -/
def isTrailing (unit : Nat) : Bool := 0xDC00 ≤ unit && unit ≤ 0xDFFF

/-- The code point of a pair of code units. -/
def pairValue (leading trailing : Nat) : Nat :=
  0x10000 + (leading - 0xD800) * 0x400 + (trailing - 0xDC00)

/-- Takes one character that must follow the first half of a pair. -/
def expectInEscape (expected : Char) : Reader Unit := do
  match ← peek with
  | none => stopHere .endInString
  | some c => if c = expected then advance else stopNext .endOfHexEscape

/-- Takes a code unit, and the second half of its pair if it is a first half. -/
def unicodeEscape : Reader Char := do
  let unit ← codeUnit
  if isTrailing unit then stopHere .loneSurrogate
  else if isLeading unit then do
    expectInEscape '\\'
    expectInEscape 'u'
    let second ← codeUnit
    if isTrailing second then return Char.ofNat (pairValue unit second)
    else stopHere .loneSurrogate
  else return Char.ofNat unit

/-- The character that a letter after a backslash stands for. -/
def simpleEscape? : Char → Option Char
  | '\x22' => some '\x22'
  | '\\' => some '\\'
  | '/' => some '/'
  | 'b' => some '\x08'
  | 'f' => some '\x0c'
  | 'n' => some '\n'
  | 'r' => some '\r'
  | 't' => some '\t'
  | _ => none

/-- Takes what follows a backslash. -/
def escape : Reader Char := do
  match ← peek with
  | none => stopHere .endInString
  | some 'u' => do
    advance
    unicodeEscape
  | some c =>
    match simpleEscape? c with
    | some meant => do
      advance
      return meant
    | none => stopNext .invalidEscape

/-- Takes characters up to the closing quote; no more than `fuel` pieces are left. -/
def quotedFrom (done : List Char) : Nat → Reader String
  | 0 => stopHere .endInString
  | fuel + 1 => do
    match ← peek with
    | none => stopHere .endInString
    | some '\x22' => do
      advance
      return String.ofList done.reverse
    | some '\\' => do
      advance
      let c ← escape
      quotedFrom (c :: done) fuel
    | some c =>
      if c.toNat < 32 then stopNext .controlCharacter
      else do
        advance
        quotedFrom (c :: done) fuel

/-- Takes a text whose opening quote has been taken. -/
def quotedRest : Reader String := do
  quotedFrom [] ((← get).rest.length + 1)

end GridReport.Json
