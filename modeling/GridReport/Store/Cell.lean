import GridReport.Decimal.Numeral
import GridReport.Decimal.Places
import GridReport.Store.Fault
import GridReport.Tick

/-!
Cells of the database: what they hold, and how text and numbers turn into each other.
-/

namespace GridReport.Store

inductive Cell where
  | null
  | integer (value : Int)
  | real (value : Float)
  | text (value : String)
  | blob (bytes : List UInt8)
deriving Inhabited

namespace Cell

def kind : Cell → CellKind
  | null => .null
  | integer _ => .integer
  | real _ => .real
  | text _ => .text
  | blob _ => .blob

def isNull : Cell → Bool
  | null => true
  | _ => false

/-- A double as a cell; what is no number is nothing. -/
def ofFloat (value : Float) : Cell := if value.isNaN then null else real value

/-- White space around a number. -/
def isSpace (c : Char) : Bool := c == ' ' || (9 ≤ c.toNat && c.toNat ≤ 13)

/-- The value of a numeral: an integer if it is written as one and fits 64 bits. -/
def ofNumeral (numeral : Decimal.Numeral) : Cell :=
  match numeral.toInt? with
  | some value => if Tick.InRange value then integer value else real numeral.toFloat
  | none => real numeral.toFloat

/-- The number that a whole text denotes, spaces at both ends aside. -/
def numeric? (written : String) : Option Cell :=
  let start := written.toList.dropWhile isSpace
  match Decimal.Numeral.split? start with
  | some (numeral, rest) => if rest.all isSpace then some (ofNumeral numeral) else none
  | none => none

/-- The number at the front of a text, zero if there is none. -/
def leadingNumber (written : String) : Cell :=
  match Decimal.Numeral.split? (written.toList.dropWhile isSpace) with
  | some (numeral, _) => ofNumeral numeral
  | none => integer 0

/-- A real as an integer if that loses nothing; the two ends of the range are left out. -/
def narrow (value : Float) : Cell :=
  let whole := value.toInt64.toInt
  if Float.ofInt whole == value && Tick.least < whole && whole < Tick.greatest then integer whole
  else real value

/-- The first digits of a magnitude, rounded to `count` of them, and the decimal exponent of the
first. -/
def significant (count : Nat) (x : Decimal.Binary) : Nat × Int :=
  let unit := x.scale - count
  let units :=
    Decimal.roundDiv (x.m * Nat.pow 2 x.q.toNat * Nat.pow 10 (-unit).toNat)
      (Nat.pow 2 (-x.q).toNat * Nat.pow 10 unit.toNat)
  if Nat.pow 10 count ≤ units then (units / 10, x.scale) else (units, x.scale - 1)

def dropZeros (digits : List Char) : List Char :=
  match (digits.reverse.dropWhile (· == '0')).reverse with
  | [] => ['0']
  | kept => kept

/-- The text of a magnitude with up to fifteen digits and always a point. -/
def magnitudeText (x : Decimal.Binary) : String :=
  if x.m = 0 then "0.0"
  else
    let (units, exponent) := significant 15 x
    let digits := Decimal.digitChars units
    if exponent < -4 || 14 < exponent then
      let power := Decimal.digitChars exponent.natAbs
      let sign := if exponent < 0 then '-' else '+'
      String.ofList (digits.take 1 ++ ['.'] ++ dropZeros (digits.drop 1) ++ ['e', sign] ++
        List.replicate (2 - power.length) '0' ++ power)
    else if exponent < 0 then
      String.ofList (['0', '.'] ++
        dropZeros (List.replicate (exponent.natAbs - 1) '0' ++ digits))
    else
      let before := exponent.toNat + 1
      String.ofList (digits.take before ++ ['.'] ++ dropZeros (digits.drop before))

def realText (value : Float) : String :=
  match Decimal.Shape.ofFloat value with
  | .nan => ""
  | .infinite negative => Decimal.signText negative ++ "Inf"
  | .finite negative magnitude =>
    Decimal.signText (negative && magnitude.m != 0) ++ magnitudeText magnitude

def bytesText (bytes : List UInt8) : String :=
  (String.fromUTF8? ⟨bytes.toArray⟩).getD
    (String.ofList (bytes.map fun byte => Char.ofNat byte.toNat))

def text? : Cell → Option String
  | null => none
  | integer value => some (toString value)
  | real value => some (realText value)
  | text value => some value
  | blob bytes => some (bytesText bytes)

/-- The number in a cell: itself, or the number at the front of a text. -/
def number : Cell → Cell
  | text value => leadingNumber value
  | blob bytes => leadingNumber (bytesText bytes)
  | other => other

/-- A number as a double. -/
def toFloat : Cell → Float
  | integer value => Float.ofInt value
  | real value => value
  | _ => 0.0

end Cell

end GridReport.Store
