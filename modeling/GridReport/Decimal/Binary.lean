/-!
Doubles taken apart into sign and exact binary magnitude, and put together from an exact decimal.

A finite double is `m * 2 ^ q` with a sign; everything that is written about it (shortest digits,
fixed places) is worked out on `m` and `q` in exact integer arithmetic.
-/

namespace GridReport.Decimal

/-- A finite magnitude `m * 2 ^ q`. -/
structure Binary where
  m : Nat
  q : Int
  /-- The gap to the magnitude below is half the gap to the one above. -/
  narrowBelow : Bool
deriving Repr, DecidableEq

/-- What a double holds. -/
inductive Shape where
  | nan
  | infinite (negative : Bool)
  | finite (negative : Bool) (magnitude : Binary)
deriving Repr, DecidableEq

/-- Reads the sign, the exponent and the fraction field of a double. -/
def Shape.ofFloat (x : Float) : Shape :=
  let bits := x.toBits.toNat
  let negative := bits / Nat.pow 2 63 == 1
  let e : Nat := bits / Nat.pow 2 52 % Nat.pow 2 11
  let f : Nat := bits % Nat.pow 2 52
  if e == 2047 then
    if f == 0 then .infinite negative else .nan
  else if e == 0 then .finite negative ⟨f, -1074, false⟩
  else .finite negative ⟨Nat.pow 2 52 + f, (e : Int) - 1075, f == 0 && e > 1⟩

/-- The double nearest to `digits * 10 ^ exponent`, a tie going to the even mantissa. Magnitudes
far outside the range of doubles are settled first, so no huge power of ten is computed. -/
def toFloat (negative : Bool) (digits : Nat) (exponent : Int) : Float :=
  let magnitude : Float :=
    if digits == 0 then 0.0
    else if exponent > 400 then 1.0 / 0.0
    else if 3 * exponent + Nat.log2 digits + 1101 < 0 then 0.0
    else if exponent < 0 then Float.ofScientific digits true exponent.natAbs
    else Float.ofScientific digits false exponent.natAbs
  if negative then -magnitude else magnitude

end GridReport.Decimal
