import GridReport.Store.Operator

/-!
Functions of cells, by name.

A function works on the cells of one row. Most of them give nothing if a cell that they need is
nothing.
-/

namespace GridReport.Store

/-- A function with the number of cells that it takes. -/
structure Function where
  least : Nat
  /-- The greatest number of cells, if there is one. -/
  greatest : Option Nat
  apply : List Cell → Except Fault Cell

namespace Function

def takes (function : Function) (count : Nat) : Bool :=
  function.least ≤ count && (function.greatest.map fun most => decide (count ≤ most)).getD true

/-- The refusal of a result that leaves the integers. -/
def overflow : Fault := .engine .statement "integer overflow"

def firstPresent (cells : List Cell) : Cell :=
  (cells.find? fun cell => !cell.isNull).getD .null

/-- The cell that comes last in an order, the first of equal ones; nothing if one of them is. -/
def extreme (better : Ordering) (cells : List Cell) : Cell :=
  if cells.any Cell.isNull then .null
  else
    match cells with
    | [] => .null
    | head :: tail =>
      tail.foldl (fun best cell => if cell.order best == better then cell else best) head

def magnitude : Cell → Except Fault Cell
  | .null => .ok .null
  | .integer value =>
    if value = Tick.least then .error overflow else .ok (.integer value.natAbs)
  | other => .ok (Cell.ofFloat other.number.toFloat.abs)

/-- The number of letters, or of bytes. -/
def size : Cell → Cell
  | .null => .null
  | .blob bytes => .integer bytes.length
  | other => .integer ((other.text?.map String.length).getD 0)

def mapText (change : Char → Char) (cell : Cell) : Cell :=
  (cell.text?.map fun value => Cell.text (value.map change)).getD .null

/-- The sign of a number; what is no number has none. -/
def sign (cell : Cell) : Cell :=
  let ofOrder : Ordering → Cell
    | .lt => .integer (-1)
    | .eq => .integer 0
    | .gt => .integer 1
  match Affinity.readNumber cell with
  | .integer value => ofOrder (Ord.compare value 0)
  | .real value => ofOrder (Cell.orderReals value 0.0)
  | _ => .null

/-- The double rounded to a whole number, by a half that is added in doubles. -/
def roundWhole (value : Float) : Float :=
  if value.abs ≤ 4503599627370496.0 then
    Float.ofInt (value + (if value < 0.0 then -0.5 else 0.5)).toInt64.toInt
  else value

/-- The double rounded to a number of decimal places, halves away from zero. -/
def roundAt (places : Nat) (value : Float) : Float :=
  match Decimal.Shape.ofFloat value with
  | .finite negative x =>
    let denominator := Nat.pow 2 (-x.q).toNat
    let numerator := x.m * Nat.pow 2 x.q.toNat * Nat.pow 10 places
    let units := (2 * numerator + denominator) / (2 * denominator)
    if 0 ≤ x.q then value else Decimal.toFloat negative units (-(places : Int))
  | _ => value

/-- The number rounded to whole ones, or to a number of places. -/
def round : List Cell → Cell
  | [] => .null
  | value :: rest =>
    let places := (rest.head?.map Cell.whole).getD 0
    if value.isNull || rest.any Cell.isNull then .null
    else
      match (min 30 places).toNat with
      | 0 => Cell.ofFloat (roundWhole value.number.toFloat)
      | decimals => Cell.ofFloat (roundAt decimals value.number.toFloat)

/-- A part of a text, by the position of its first letter, counted from 1 or from the end, and by
its length. A negative length counts toward the front. -/
def part : List Cell → Cell
  | value :: start :: rest =>
    if value.isNull || start.isNull || rest.any Cell.isNull then .null
    else
      let letters := ((value.text?).getD "").toList
      let count : Int := letters.length
      let first := if start.whole < 0 then count + start.whole else start.whole - 1
      let wanted := (rest.head?.map Cell.whole).getD (count - min first 0)
      let low := first + min wanted 0
      let high := first + max wanted 0
      .text (String.ofList ((letters.take high.toNat).drop low.toNat))
  | _ => .null

/-- The bytes of a cell, those of its text if it has any. -/
def bytesOf : Cell → List UInt8
  | .blob bytes => bytes
  | other => (other.text?.map fun value => value.toUTF8.toList).getD []

/-- The position of the first place where a list has a part, counted from 1, or zero. -/
def placeOf {α : Type} [BEq α] (part : List α) (whole : List α) : Nat :=
  ((List.range (whole.length + 1)).find? fun skipped =>
    part.isPrefixOf (whole.drop skipped)).elim 0 (· + 1)

/-- Where a text, or bytes, have another first. -/
def place : List Cell → Cell
  | [.blob whole, .blob part] => .integer (placeOf part whole)
  | [whole, part] =>
    match whole.text?, part.text? with
    | some letters, some wanted => .integer (placeOf wanted.toList letters.toList)
    | _, _ => .null
  | _ => .null

/-- A text without some letters at its ends; without blanks if none are given. -/
def trimmed (front back : Bool) : List Cell → Cell
  | value :: rest =>
    match value.text?, rest.head?.elim (some " ") Cell.text? with
    | some letters, some dropped =>
      let outer (c : Char) : Bool := dropped.toList.contains c
      let start := if front then letters.toList.dropWhile outer else letters.toList
      .text (String.ofList (if back then (start.reverse.dropWhile outer).reverse else start))
    | _, _ => .null
  | [] => .null

/-- A text with another in the place of each of its parts of one spelling. -/
def replaced : List Cell → Cell
  | [value, old, new] =>
    match value.text?, old.text?, new.text? with
    | some letters, some wanted, some put =>
      if wanted.isEmpty then .text letters
      else .text (String.intercalate put (letters.splitOn wanted))
    | _, _, _ => .null
  | _ => .null

/-- The bytes as digits in base sixteen. -/
def inHex (cell : Cell) : Cell :=
  let digit (n : Nat) : Char := Char.ofNat (if n < 10 then 48 + n else 55 + n)
  .text (String.ofList ((bytesOf cell).flatMap fun byte =>
    [digit (byte.toNat / 16), digit (byte.toNat % 16)]))

/-- The number of the first letter. -/
def firstCode (cell : Cell) : Cell :=
  ((cell.text?.bind fun value => value.toList.head?).map fun c =>
    Cell.integer c.toNat).getD .null

def all : List (String × Function) :=
  let total (least : Nat) (greatest : Option Nat) (apply : List Cell → Cell) : Function :=
    ⟨least, greatest, fun cells => .ok (apply cells)⟩
  let one (apply : Cell → Cell) : Function :=
    total 1 (some 1) fun cells => apply (cells.head?.getD .null)
  [("abs", ⟨1, some 1, fun cells => magnitude (cells.head?.getD .null)⟩),
    ("coalesce", total 2 none firstPresent),
    ("hex", one inHex),
    ("ifnull", total 2 (some 2) firstPresent),
    ("iif", total 3 (some 3) fun
      | [condition, holds, fails] => if condition.truth = some true then holds else fails
      | _ => .null),
    ("instr", total 2 (some 2) place),
    ("length", one size),
    ("lower", one (mapText Char.toLower)),
    ("ltrim", total 1 (some 2) (trimmed true false)),
    ("max", total 2 none (extreme .gt)),
    ("min", total 2 none (extreme .lt)),
    ("nullif", total 2 (some 2) fun
      | [value, other] => if value.same other then .null else value
      | _ => .null),
    ("replace", total 3 (some 3) replaced),
    ("round", total 1 (some 2) round),
    ("rtrim", total 1 (some 2) (trimmed false true)),
    ("sign", one sign),
    ("substr", total 2 (some 3) part),
    ("substring", total 2 (some 3) part),
    ("trim", total 1 (some 2) (trimmed true true)),
    ("typeof", one fun cell => .text (cell.kind.label.map Char.toLower)),
    ("unicode", one firstCode),
    ("upper", one (mapText Char.toUpper))]

def find? (name : String) : Option Function := all.lookup (name.map Char.toLower)

end Function

end GridReport.Store
