import GridReport.Json.Quoted

/-!
Skipping a value that nobody asked for.

Skipping is more lenient than reading: any depth of nesting is passed, numbers may have any size,
and half a pair of code units is no fault. The open lists and objects are kept on a stack, the
innermost first.
-/

namespace GridReport.Json

/-- An open list or object. -/
inductive Frame where
  | list
  | object
deriving Repr, DecidableEq

def Frame.closer : Frame → Char
  | .list => ']'
  | .object => '\x7d'

/-- The fault of a text that ends inside a frame. -/
def Frame.unclosed : Frame → Reason
  | .list => .endInList
  | .object => .endInObject

/-- The fault of a value that is neither followed by a comma nor by the end of its frame. -/
def Frame.unseparated : Frame → Reason
  | .list => .expectedCommaOrBracket
  | .object => .expectedCommaOrBrace

def skipExponent : Reader Unit := do
  if (← peek) == some '-' || (← peek) == some '+' then advance
  if (← takeWhile Char.isDigit).isEmpty then stopNext .invalidNumber

def skipPower : Reader Unit := do
  if (← peek) == some 'e' || (← peek) == some 'E' then do
    advance
    skipExponent

/-- Skips a number whose sign has been taken. -/
def skipUnsigned : Reader Unit := do
  let start := (← get).offset
  match ← takeWhile Char.isDigit with
  | [] => stopNext .invalidNumber
  | '0' :: _ :: _ => throw ⟨.invalidNumber, start + 2⟩
  | _ => return ()
  if (← peek) == some '.' then do
    advance
    if (← takeWhile Char.isDigit).isEmpty then stopNext .invalidNumber
  skipPower

def skipEscape : Reader Unit := do
  match ← peek with
  | none => stopHere .endInString
  | some 'u' => do
    advance
    let _ ← codeUnit
  | some c => if (simpleEscape? c).isSome then advance else stopNext .invalidEscape

/-- Skips to the closing quote; no more than `fuel` pieces are left. -/
def skipQuotedFrom : Nat → Reader Unit
  | 0 => stopHere .endInString
  | fuel + 1 => do
    match ← peek with
    | none => stopHere .endInString
    | some '\x22' => advance
    | some '\\' => do
      advance
      skipEscape
      skipQuotedFrom fuel
    | some c =>
      if c.toNat < 32 then stopHere .controlCharacter
      else do
        advance
        skipQuotedFrom fuel

/-- Skips a text whose opening quote has been taken. -/
def skipQuoted : Reader Unit := do skipQuotedFrom ((← get).rest.length + 1)

/-- Skips a value, or takes the bracket or brace that opens it. -/
def skipScalar : Reader (Option Frame) := do
  match ← peekPastSpace with
  | none => stopNext .endInValue
  | some 'n' => do
    word ['n', 'u', 'l', 'l']
    return none
  | some 't' => do
    word ['t', 'r', 'u', 'e']
    return none
  | some 'f' => do
    word ['f', 'a', 'l', 's', 'e']
    return none
  | some '-' => do
    advance
    skipUnsigned
    return none
  | some '\x22' => do
    advance
    skipQuoted
    return none
  | some '[' => do
    advance
    return some .list
  | some '\x7b' => do
    advance
    return some .object
  | some c =>
    if c.isDigit then do
      skipUnsigned
      return none
    else stopNext .expectedValue

/-- Closes the frames that end here; `separated` says that a value came before. What is left open
is given back, and nothing more if the outermost frame was closed. -/
def closeFrames (separated : Bool) : List Frame → Reader (List Frame)
  | [] => return []
  | frame :: outer => do
    match ← peekPastSpace with
    | none => stopNext frame.unclosed
    | some c =>
      if separated && c = ',' then do
        advance
        return frame :: outer
      else if c = frame.closer then do
        advance
        closeFrames true outer
      else if separated then stopNext frame.unseparated
      else return frame :: outer

def skipKey : Reader Unit := do
  match ← peekPastSpace with
  | some '\x22' => do
    advance
    skipQuoted
    match ← peekPastSpace with
    | some ':' => advance
    | some _ => stopNext .expectedColon
    | none => stopNext .endInObject
  | some _ => stopNext .keyNotString
  | none => stopNext .endInObject

/-- Skips values until all frames are closed; no more than `fuel` values are left. -/
def skipFrom (frames : List Frame) : Nat → Reader Unit
  | 0 => stopNext .endInValue
  | fuel + 1 => do
    let opened ← skipScalar
    let left ← closeFrames opened.isNone (opened.toList ++ frames)
    match left with
    | [] => return ()
    | frame :: _ => do
      if frame = .object then skipKey
      skipFrom left fuel

def skipValue : Reader Unit := do skipFrom [] ((← get).rest.length + 1)

end GridReport.Json
