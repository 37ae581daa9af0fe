import GridReport.Store.Order

/-!
Operators on cells.

An operand that is nothing makes the result nothing, but for the logic of three values. Integers are
worked on as integers while the result fits 64 bits, and as reals otherwise.
-/

namespace GridReport.Store

namespace Cell

def ofTruth : Option Bool → Cell
  | none => null
  | some true => integer 1
  | some false => integer 0

/-- The truth of a cell: a number is true unless it is zero. -/
def truth (cell : Cell) : Option Bool :=
  match cell.number with
  | integer value => some (value != 0)
  | real value => some (value != 0.0)
  | _ => none

def both : Option Bool → Option Bool → Option Bool
  | some false, _ => some false
  | _, some false => some false
  | some true, some true => some true
  | _, _ => none

/-- One of two holds. -/
def either : Option Bool → Option Bool → Option Bool
  | some true, _ => some true
  | _, some true => some true
  | some false, some false => some false
  | _, _ => none

/-- Works on two numbers. -/
def arithmetic (onIntegers : Int → Int → Int) (onReals : Float → Float → Float) (x y : Cell) :
    Cell :=
  match x.number, y.number with
  | null, _ => null
  | _, null => null
  | integer a, integer b =>
    let result := onIntegers a b
    if Tick.InRange result then integer result
    else ofFloat (onReals (Float.ofInt a) (Float.ofInt b))
  | a, b => ofFloat (onReals a.toFloat b.toFloat)

def isZero (cell : Cell) : Bool := cell.truth == some false

/-- Divides; the quotient of integers is cut toward zero, and there is none by zero. -/
def divide (x y : Cell) : Cell :=
  if y.isZero then null else arithmetic Int.tdiv (· / ·) x y

/-- The whole part of a number, within 64 bits. -/
def whole (cell : Cell) : Int :=
  match cell.number with
  | integer value => value
  | real value => value.toInt64.toInt
  | _ => 0

/-- The remainder of whole parts, a real if one of the operands is. -/
def remainder (x y : Cell) : Cell :=
  match x.number, y.number with
  | null, _ => null
  | _, null => null
  | a, b =>
    if b.whole = 0 then null
    else
      let left := Int.tmod a.whole b.whole
      match a, b with
      | integer _, integer _ => integer left
      | _, _ => real (Float.ofInt left)

/-- Works on the bits of whole parts. -/
def bitwise (onBits : Int64 → Int64 → Int64) (x y : Cell) : Cell :=
  if x.isNull || y.isNull then null
  else integer (onBits (Int64.ofInt x.whole) (Int64.ofInt y.whole)).toInt

/-- Puts texts together. -/
def concat (x y : Cell) : Cell :=
  match x.text?, y.text? with
  | some a, some b => text (a ++ b)
  | _, _ => null

/-- A number with the other sign. -/
def negate (cell : Cell) : Cell := arithmetic (· - ·) (· - ·) (integer 0) cell

/-- The letters match a pattern, in which `%` stands for any letters and `_` for one. Case does not
matter; a letter after the escape stands for itself. -/
def matchesPattern (escape : Option Char) : List Char → List Char → Bool
  | [], letters => letters.isEmpty
  | [p], letters =>
    if escape = some p then false
    else if p = '%' then true
    else
      match letters with
      | [c] => p = '_' || p.toLower = c.toLower
      | _ => false
  | p :: q :: pattern, letters =>
    if escape = some p then
      match letters with
      | [] => false
      | c :: rest => q.toLower = c.toLower && matchesPattern escape pattern rest
    else if p = '%' then
      (List.range (letters.length + 1)).any fun skipped =>
        matchesPattern escape (q :: pattern) (letters.drop skipped)
    else
      match letters with
      | [] => false
      | c :: rest =>
        (p = '_' || p.toLower = c.toLower) && matchesPattern escape (q :: pattern) rest

/-- The text matches the pattern, if both are there. -/
def like (escape : Option Char) (value pattern : Cell) : Option Bool :=
  match value.text?, pattern.text? with
  | some letters, some wanted => some (matchesPattern escape wanted.toList letters.toList)
  | _, _ => none

end Cell

/-- What a cell is turned into. -/
inductive CastTarget where
  | integer
  | real
  | numeric
  | text
  | bytes
deriving Repr, DecidableEq

namespace CastTarget

def mentions (words : List String) (name : String) : Bool :=
  words.any fun word => (name.splitOn word).length > 1

def ofType (name : String) : CastTarget :=
  let upper := name.map Char.toUpper
  if mentions ["INT"] upper then integer
  else if mentions ["CHAR", "CLOB", "TEXT"] upper then text
  else if mentions ["BLOB"] upper || upper == "" then bytes
  else if mentions ["REAL", "FLOA", "DOUB"] upper then real
  else numeric

/-- The preference of a cell that has been turned into the target. -/
def affinity : CastTarget → Affinity
  | integer => .numeric
  | real => .real
  | numeric => .numeric
  | text => .text
  | bytes => .none

/-- The digits of a whole number at the front of a text, with their sign. -/
def leadingWhole (written : String) : Int :=
  let start := written.toList.dropWhile Cell.isSpace
  let (negative, rest) := Decimal.splitSign start
  let magnitude : Int := Decimal.digitsValue (rest.takeWhile Char.isDigit)
  max Tick.least (min Tick.greatest (if negative then -magnitude else magnitude))

/-- Turns a cell into the target; nothing stays nothing. -/
def apply (target : CastTarget) (cell : Cell) : Cell :=
  if cell.isNull then .null
  else
    match target with
    | integer =>
      match cell with
      | .text value => .integer (leadingWhole value)
      | .blob value => .integer (leadingWhole (Cell.bytesText value))
      | number => .integer number.whole
    | real => Cell.ofFloat cell.number.toFloat
    | numeric =>
      match cell with
      | .integer value => .integer value
      | .real value => .real value
      | other => Affinity.preferInteger other.number
    | text => (cell.text?.map Cell.text).getD .null
    | bytes =>
      match cell with
      | .blob value => .blob value
      | other => .blob ((other.text?.map fun t => t.toUTF8.toList).getD [])

end CastTarget

end GridReport.Store
