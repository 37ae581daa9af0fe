import GridReport.Decimal.Binary

/-!
Decimal numerals in text: an optional sign, digits with at most one point, and an optional
exponent.

A numeral needs a digit before or after its point. A letter `e` belongs to it only if digits follow,
with or without a sign.
-/

namespace GridReport.Decimal

/-- A numeral as it is written. The value is `digits * 10 ^ exponent` with the sign. -/
structure Numeral where
  negative : Bool
  digits : Nat
  exponent : Int
  /-- There is neither a point nor an exponent. -/
  isWhole : Bool
deriving Repr, DecidableEq

def digitsValue (digits : List Char) : Nat :=
  digits.foldl (fun value digit => 10 * value + (digit.toNat - 48)) 0

def splitSign : List Char → Bool × List Char
  | '-' :: rest => (true, rest)
  | '+' :: rest => (false, rest)
  | rest => (false, rest)

def splitExponent (chars : List Char) : Option (Int × List Char) :=
  match chars with
  | letter :: rest =>
    if letter = 'e' || letter = 'E' then
      let (negative, after) := splitSign rest
      match after.takeWhile Char.isDigit with
      | [] => none
      | digits =>
        let value : Int := digitsValue digits
        some (if negative then -value else value, after.dropWhile Char.isDigit)
    else none
  | [] => none

def splitFraction : List Char → Option (List Char × List Char)
  | '.' :: rest => some (rest.takeWhile Char.isDigit, rest.dropWhile Char.isDigit)
  | _ => none

/-- The longest numeral at the front of a text, and what follows it. -/
def Numeral.split? (chars : List Char) : Option (Numeral × List Char) :=
  let (negative, unsigned) := splitSign chars
  let head := unsigned.takeWhile Char.isDigit
  let afterHead := unsigned.dropWhile Char.isDigit
  let (tail, afterTail) := (splitFraction afterHead).getD ([], afterHead)
  if head.isEmpty && tail.isEmpty then none
  else
    let exponent := splitExponent afterTail
    some (⟨negative, digitsValue (head ++ tail), (exponent.map (·.1)).getD 0 - tail.length,
      (splitFraction afterHead).isNone && exponent.isNone⟩,
      (exponent.map (·.2)).getD afterTail)

def Numeral.parse? (chars : List Char) : Option Numeral :=
  match Numeral.split? chars with
  | some (numeral, []) => some numeral
  | _ => none

/-- The double nearest to the value of a numeral. -/
def Numeral.toFloat (numeral : Numeral) : Float :=
  Decimal.toFloat numeral.negative numeral.digits numeral.exponent

def Numeral.toInt? (numeral : Numeral) : Option Int :=
  if numeral.isWhole then
    some (if numeral.negative then -(numeral.digits : Int) else numeral.digits)
  else none

end GridReport.Decimal
