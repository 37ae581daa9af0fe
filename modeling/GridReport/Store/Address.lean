import GridReport.Store.Fault

/-!
Addresses of databases: the word `file:`, a path, and settings after a question mark.

A percent sign with two digits in base sixteen stands for a byte of the path. A mode that would
allow writing is refused, since databases are opened for reading.
-/

namespace GridReport.Store

structure Address where
  path : String
  /-- The settings by name. -/
  settings : List (String × String)
deriving Repr, DecidableEq

namespace Address

/-- The word that starts an address. -/
def scheme : List Char := "file:".toList

/-- The value of a digit in base sixteen. -/
def digit? (c : Char) : Option Nat :=
  if c.isDigit then some (c.toNat - 48)
  else if 'a' ≤ c.toLower && c.toLower ≤ 'f' then some (c.toLower.toNat - 87)
  else none

/-- The bytes of a text in which percent signs stand for bytes. -/
def decodeBytes : List Char → List UInt8
  | '%' :: high :: low :: rest =>
    match digit? high, digit? low with
    | some a, some b => UInt8.ofNat (16 * a + b) :: decodeBytes rest
    | _, _ => "%".toUTF8.toList ++ decodeBytes (high :: low :: rest)
  | c :: rest => (String.singleton c).toUTF8.toList ++ decodeBytes rest
  | [] => []
termination_by chars => chars.length

/-- The text that a part of an address stands for. -/
def decode (chars : List Char) : String :=
  (String.fromUTF8? ⟨(decodeBytes chars).toArray⟩).getD (String.ofList chars)

def withoutHost : List Char → List Char
  | '/' :: '/' :: rest => rest.dropWhile (· != '/')
  | path => path

def setting (chars : List Char) : String × String :=
  (decode (chars.takeWhile (· != '=')), decode ((chars.dropWhile (· != '=')).drop 1))

def ofText? (text : String) : Option Address :=
  if scheme.isPrefixOf text.toList then
    let whole := (text.toList.drop scheme.length).takeWhile (· != '#')
    let path := whole.takeWhile (· != '?')
    let given := (whole.drop (path.length + 1)).splitOn '&'
    some ⟨decode (withoutHost path), (given.filter fun part => !part.isEmpty).map setting⟩
  else none

def mode? (address : Address) : Option String := address.settings.lookup "mode"

def inMemory (address : Address) : Bool :=
  address.mode? == some "memory" || address.path == ":memory:"

def refusal? (address : Address) : Option Fault :=
  match address.mode? with
  | none => none
  | some "ro" => none
  | some "memory" => none
  | some mode =>
    if mode == "rw" || mode == "rwc" then
      some (.engine .permission ("access mode not allowed: " ++ mode))
    else some (.engine .statement ("no such access mode: " ++ mode))

end Address

end GridReport.Store
