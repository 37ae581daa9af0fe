import GridReport.Decimal.Layout

/-!
Numbers with a set count of decimal places, rounded from the exact value with ties to even.
-/

namespace GridReport.Decimal

/-- The quotient rounded to nearest, a tie going to the even neighbour. -/
def roundDiv (num den : Nat) : Nat :=
  let low := num / den
  let rest := num % den
  if 2 * rest < den then low
  else if den < 2 * rest then low + 1
  else if low % 2 == 0 then low else low + 1

/-- The digits with the point before the last `places` of them. -/
def fixedText (places : Nat) (units : Nat) : String :=
  let digits := digitChars units
  let padded := List.replicate (places + 1 - digits.length) '0' ++ digits
  let before := padded.length - places
  String.ofList (padded.take before ++ ['.'] ++ padded.drop before)

/-- The text of a double with `places` decimal places; the sign of a value that rounds to zero
stays. -/
def fixed (places : Nat) (x : Float) : String :=
  match Shape.ofFloat x with
  | .nan => "NaN"
  | .infinite negative => signText negative ++ "inf"
  | .finite negative magnitude =>
    let units :=
      roundDiv (magnitude.m * Nat.pow 2 magnitude.q.toNat * Nat.pow 10 places)
        (Nat.pow 2 (-magnitude.q).toNat)
    signText negative ++ fixedText places units

end GridReport.Decimal
