import GridReport.Json.Fault
import GridReport.Text.Width

/-!
Places in a text and the readers that move through it.

A reader takes characters off the front of what is left and counts their bytes, so the place where
it stops can be told as a line and a byte column of the text.
-/

namespace GridReport.Json

/-- A place in a text: the bytes read and the characters still to come. -/
structure Cursor where
  offset : Nat
  rest : List Char

/-- Why a reader stopped, and how many bytes it had read. -/
structure Stop where
  reason : Reason
  offset : Nat

/-- A step through a text that gives a value or stops. -/
abbrev Reader (α : Type) : Type := StateT Cursor (Except Stop) α

def stopHere {α : Type} (reason : Reason) : Reader α := do
  throw ⟨reason, (← get).offset⟩

/-- Stops after the first byte to come, or at the end of the text. -/
def stopNext {α : Type} (reason : Reason) : Reader α := do
  let cursor ← get
  throw ⟨reason, if cursor.rest.isEmpty then cursor.offset else cursor.offset + 1⟩

def peek : Reader (Option Char) := return (← get).rest.head?

def takeWhile (test : Char → Bool) : Reader (List Char) := do
  let cursor ← get
  let taken := cursor.rest.takeWhile test
  set (Cursor.mk (cursor.offset + Text.width taken) (cursor.rest.dropWhile test))
  return taken

/-- Takes one character. -/
def advance : Reader Unit :=
  modify fun cursor =>
    match cursor.rest with
    | [] => cursor
    | c :: rest => ⟨cursor.offset + c.utf8Size, rest⟩

def isSpace (c : Char) : Bool := c == ' ' || c == '\n' || c == '\t' || c == '\r'

def skipSpace : Reader Unit := do
  let _ ← takeWhile isSpace

def peekPastSpace : Reader (Option Char) := do
  skipSpace
  peek

def word : List Char → Reader Unit
  | [] => return ()
  | letter :: letters => do
    match ← peek with
    | none => stopHere .endInValue
    | some c => if c = letter then do advance; word letters else stopNext .expectedIdent

/-- The line and the byte column after `offset` bytes; `column` bytes of the current line have been
passed already. -/
def locate (line column : Nat) : Nat → List Char → Nat × Nat
  | offset, [] => (line, column + offset)
  | offset, c :: rest =>
    if offset < c.utf8Size then (line, column + offset)
    else if c = '\n' then locate (line + 1) 0 (offset - 1) rest
    else locate line (column + c.utf8Size) (offset - c.utf8Size) rest

def Stop.fault (stop : Stop) (text : String) : Fault :=
  let place := locate 1 0 stop.offset text.toList
  ⟨stop.reason, place.1, place.2⟩

/-- Runs a reader on a whole text; nothing but white space may follow what it reads. -/
def readAll {α : Type} (reader : Reader α) (text : String) : Except Fault α :=
  let whole : Reader α := do
    let result ← reader
    if (← peekPastSpace).isSome then stopNext .trailingCharacters else return result
  match whole.run ⟨0, text.toList⟩ with
  | .ok (result, _) => .ok result
  | .error stop => .error (stop.fault text)

end GridReport.Json
