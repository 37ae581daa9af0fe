import GridReport.Decimal.Binary

/-!
The fewest decimal digits that read back to a given double.

The reals that round to `m * 2 ^ q` form an interval whose ends belong to it exactly when `m` is
even. For one, two, … digits the two neighbours of the value on that decimal grid are tested
against the interval by cross-multiplication; the first grid with a hit wins, and of two hits the
nearer.
-/

namespace GridReport.Decimal

/-- The magnitude `digits * 10 ^ exponent`. -/
structure Scientific where
  digits : Nat
  exponent : Int
deriving Repr, DecidableEq

/-- Where a value goes that lies exactly between two candidates. -/
inductive Tie where
  | toEven
  | up
deriving Repr, DecidableEq

def compareScaled (a : Nat) (i : Int) (n : Nat) (j : Int) : Ordering :=
  compare (a * Nat.pow 10 i.toNat * Nat.pow 2 (-j).toNat)
    (n * Nat.pow 2 j.toNat * Nat.pow 10 (-i).toNat)

/-- The decimal lies among the reals that round to `x`. -/
def Binary.readsBack (x : Binary) (d : Scientific) : Bool :=
  let low := if x.narrowBelow then 4 * x.m - 1 else 4 * x.m - 2
  let high := 4 * x.m + 2
  let ends := x.m % 2 == 0
  let below := compareScaled d.digits d.exponent low (x.q - 2)
  let above := compareScaled d.digits d.exponent high (x.q - 2)
  (below == .gt || (ends && below == .eq)) && (above == .lt || (ends && above == .eq))

/-- The largest multiple of `10 ^ e` that is not above `x`, as a count of that unit. -/
def Binary.floorGrid (x : Binary) (e : Int) : Nat :=
  (x.m * Nat.pow 2 x.q.toNat * Nat.pow 10 (-e).toNat) /
    (Nat.pow 2 (-x.q).toNat * Nat.pow 10 e.toNat)

/-- Moves an estimate of the decimal scale up until `x < 10 ^ k`. -/
def Binary.raiseScale (x : Binary) : Nat → Int → Int
  | 0, k => k
  | fuel + 1, k =>
    if compareScaled 1 k x.m x.q == .gt then k else x.raiseScale fuel (k + 1)

/-- The least `k` with `x < 10 ^ k`: an estimate from the binary logarithm that is never too
large, raised by exact comparison. -/
def Binary.scale (x : Binary) : Int :=
  let binaryLog : Int := (Nat.log2 x.m : Int) + x.q
  x.raiseScale 8 (binaryLog * 30103 / 100000 - 1)

/-- Which of the two grid neighbours `low` and `low + 1` of `x` is taken when both read back. -/
def Binary.nearer (x : Binary) (tie : Tie) (low : Nat) (e : Int) : Nat :=
  match compareScaled (2 * low + 1) e x.m (x.q + 1) with
  | .gt => low
  | .lt => low + 1
  | .eq =>
    match tie with
    | .up => low + 1
    | .toEven => if low % 2 == 0 then low else low + 1

/-- The grid of `count` significant digits, then finer ones, until a neighbour of `x` reads
back. -/
def Binary.search (x : Binary) (tie : Tie) (scale : Int) : Nat → Nat → Option Scientific
  | 0, _ => none
  | fuel + 1, count =>
    let e := scale - count
    let low := x.floorGrid e
    match x.readsBack ⟨low, e⟩, x.readsBack ⟨low + 1, e⟩ with
    | true, true => some ⟨x.nearer tie low e, e⟩
    | true, false => some ⟨low, e⟩
    | false, true => some ⟨low + 1, e⟩
    | false, false => x.search tie scale fuel (count + 1)

/-- Moves trailing zeros of the digits into the exponent. -/
def Scientific.strip (d : Scientific) : Nat → Scientific
  | 0 => d
  | fuel + 1 =>
    if d.digits != 0 && d.digits % 10 == 0 then
      Scientific.strip ⟨d.digits / 10, d.exponent + 1⟩ fuel
    else d

/-- The fewest digits that read back to `x`. A zero has the single digit zero. -/
def Binary.shortest (x : Binary) (tie : Tie) : Scientific :=
  if x.m == 0 then ⟨0, 0⟩
  else
    match x.search tie x.scale 18 1 with
    | some d => d.strip 20
    | none => ⟨x.floorGrid (x.scale - 18), x.scale - 18⟩

end GridReport.Decimal
