import GridReport.Decimal.Shortest

/-!
How the digits of a double are laid out as text.

A layout is a record of decisions; the two that the program writes are `document`, the numbers of
a document, and `plain`, the numbers of running text.
-/

namespace GridReport.Decimal

/-- The decisions a number format takes once the digits are known. With `0.d * 10 ^ e` as the
value, positional notation covers the `e` with `lowest ≤ e ≤ highest`. -/
structure Layout where
  tie : Tie
  /-- Bounds of positional notation, or none if it is always used. -/
  positional : Option (Int × Int)
  /-- Whole numbers carry `.0`. -/
  pointZero : Bool
deriving Repr, DecidableEq

/-- Numbers of a document: positional from 0.00001 below 10^16, otherwise with a signed exponent,
always recognisable as a real number. -/
def document : Layout := ⟨.toEven, some (-4, 16), true⟩

/-- Numbers of running text: always positional, and whole numbers without a point. -/
def plain : Layout := ⟨.up, none, false⟩

def digitChars (n : Nat) : List Char := Nat.toDigits 10 n

/-- The digits with the point in place; `pointAt` digits stand before it. -/
def positionalText (digits : List Char) (pointAt : Int) (pointZero : Bool) : String :=
  if pointAt ≤ 0 then
    String.ofList (['0', '.'] ++ List.replicate (-pointAt).toNat '0' ++ digits)
  else
    let before := pointAt.toNat
    let whole := digits.take before ++ List.replicate (before - digits.length) '0'
    let fraction := digits.drop before
    if fraction.isEmpty then
      String.ofList (if pointZero then whole ++ ['.', '0'] else whole)
    else String.ofList (whole ++ ['.'] ++ fraction)

/-- One digit, the rest after a point, and the exponent with its sign. -/
def exponentText (digits : List Char) (exponent : Int) : String :=
  let head := digits.take 1
  let tail := digits.drop 1
  let mantissa := if tail.isEmpty then head else head ++ ['.'] ++ tail
  let sign := if exponent < 0 then '-' else '+'
  String.ofList (mantissa ++ ['e', sign] ++ digitChars exponent.natAbs)

def Layout.magnitude (layout : Layout) (x : Binary) : String :=
  if x.m == 0 then if layout.pointZero then "0.0" else "0"
  else
    let d := x.shortest layout.tie
    let digits := digitChars d.digits
    let pointAt := d.exponent + digits.length
    match layout.positional with
    | none => positionalText digits pointAt layout.pointZero
    | some (lowest, highest) =>
      if lowest ≤ pointAt && pointAt ≤ highest then
        positionalText digits pointAt layout.pointZero
      else exponentText digits (pointAt - 1)

def signText (negative : Bool) : String := if negative then "-" else ""

def Layout.render (layout : Layout) (x : Float) : String :=
  match Shape.ofFloat x with
  | .nan => "NaN"
  | .infinite negative => signText negative ++ "inf"
  | .finite negative magnitude => signText negative ++ layout.magnitude magnitude

end GridReport.Decimal
