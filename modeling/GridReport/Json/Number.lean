import GridReport.Decimal.Binary
import GridReport.Json.Cursor
import GridReport.Json.Value

/-!
Numbers of a document.

The digits are gathered into a significand of 64 bits. Digits before the point that no longer fit
only raise the decimal exponent; digits after the point that no longer fit are left out. The double
is the significand multiplied or divided by one power of ten, so it may differ from the nearest
double in its last place.
-/

namespace GridReport.Json

def greatestSignificand : Nat := 18446744073709551615

def greatestExponent : Nat := 2147483647

/-- Appends digits to a number while it stays within `limit`, and gives the digits left over. -/
def absorb (limit value : Nat) : List Char → Nat × List Char
  | [] => (value, [])
  | digit :: digits =>
    let longer := value * 10 + (digit.toNat - 48)
    if longer ≤ limit then absorb limit longer digits else (value, digit :: digits)

def powerOfTen (exponent : Nat) : Float := Decimal.toFloat false 1 exponent

/-- `magnitude * 10 ^ exponent`, unless it is too large for a double. -/
def scale (magnitude : Float) (exponent : Int) : Option Float :=
  if 308 < exponent then if magnitude == 0.0 then some magnitude else none
  else if 0 ≤ exponent then
    let product := magnitude * powerOfTen exponent.toNat
    if product.isInf then none else some product
  else if -308 ≤ exponent then some (magnitude / powerOfTen exponent.natAbs)
  else if magnitude == 0.0 then some magnitude
  else scale (magnitude / powerOfTen 308) (exponent + 308)
termination_by exponent.natAbs
decreasing_by omega

/-- What follows the digits of a number. -/
inductive Power where
  /-- There is no exponent. -/
  | absent
  | of (exponent : Int)
  /-- An exponent past all limits that leaves nothing of the number. -/
  | vanishing

/-- Takes the digits of an exponent after its letter. -/
def exponent (isZero : Bool) : Reader Power := do
  let negative := (← peek) == some '-'
  if negative || (← peek) == some '+' then advance
  let start := (← get).offset
  match ← takeWhile Char.isDigit with
  | [] => if (← peek).isNone then stopHere .endInValue else stopNext .invalidNumber
  | digits =>
    match absorb greatestExponent 0 digits with
    | (value, []) => return .of (if negative then -(value : Int) else value)
    | (_, excess) =>
      if isZero || negative then return .vanishing
      else throw ⟨.numberOutOfRange, start + (digits.length - excess.length) + 1⟩

/-- Takes an exponent if there is one. -/
def power (isZero : Bool) : Reader Power := do
  match ← peek with
  | some 'e' => do advance; exponent isZero
  | some 'E' => do advance; exponent isZero
  | _ => return .absent

/-- Takes the digits after a point if there is one. -/
def fraction : Reader (Option (List Char)) := do
  if (← peek) == some '.' then do
    advance
    match ← takeWhile Char.isDigit with
    | [] => if (← peek).isNone then stopNext .endInValue else stopNext .invalidNumber
    | digits => return some digits
  else return none

/-- Takes the digits before the point; only a lone zero starts with a zero. -/
def whole : Reader (List Char) := do
  let start := (← get).offset
  match ← takeWhile Char.isDigit with
  | [] => if (← peek).isNone then stopHere .endInValue else stopNext .invalidNumber
  | '0' :: _ :: _ => throw ⟨.invalidNumber, start + 2⟩
  | digits => return digits

/-- The value of a number without a point or an exponent. A negative number that no signed integer
of 64 bits holds, and negative zero, are real. -/
def integer (negative : Bool) (magnitude : Nat) : Json :=
  if negative then
    if magnitude = 0 || 9223372036854775808 < magnitude then
      .real (-(Decimal.toFloat false magnitude 0))
    else .int (-(magnitude : Int))
  else .int magnitude

/-- The value of a number with a point, an exponent or too many digits. -/
def realNumber (negative : Bool) (significand : Nat) (exponent : Int) : Reader Json :=
  match scale (Decimal.toFloat false significand 0) exponent with
  | none => stopHere .numberOutOfRange
  | some magnitude => return .real (if negative then -magnitude else magnitude)

/-- Takes a number whose sign has been taken. -/
def unsignedNumber (negative : Bool) : Reader Json := do
  let (head, excess) := absorb greatestSignificand 0 (← whole)
  let decimals ← fraction
  let (significand, unused) := absorb greatestSignificand head (decimals.getD [])
  let used := (decimals.getD []).length - unused.length
  let shift : Int := (excess.length : Int) - used
  match ← power (significand = 0) with
  | .vanishing => return .real (if negative then -0.0 else 0.0)
  | .of exponent => realNumber negative significand (shift + exponent)
  | .absent =>
    if decimals.isNone && excess.isEmpty then return integer negative significand
    else realNumber negative significand shift

/-- Takes a number. -/
def numeral : Reader Json := do
  if (← peek) == some '-' then do
    advance
    unsignedNumber true
  else unsignedNumber false

end GridReport.Json
