import GridReport.Store.Cell
import GridReport.Text.Blank

/-!
Query parameters given as a name, an equals sign and a value.
-/

namespace GridReport

/-- A value for a placeholder. The name includes the colon of the placeholder. -/
structure Parameter where
  name : String
  value : Store.Cell

inductive ParameterFault where
  | noEquals (given : String)
  | noName (given : String)
deriving Repr, DecidableEq

def ParameterFault.message : ParameterFault → String
  | .noEquals given => "expected name=value, got '" ++ given ++ "'"
  | .noName given => "missing parameter name in '" ++ given ++ "'"

namespace Parameter

def splitAtEquals : List Char → Option (List Char × List Char)
  | [] => none
  | c :: rest =>
    if c = '=' then some ([], rest)
    else (splitAtEquals rest).map fun (name, raw) => (c :: name, raw)

/-- The integer that a text denotes: a sign if there is one, and digits, within 64 bits. -/
def integer? (raw : List Char) : Option Int :=
  let (negative, digits) := Decimal.splitSign raw
  if digits.isEmpty || !digits.all Char.isDigit then none
  else
    let magnitude : Int := Decimal.digitsValue digits
    let value := if negative then -magnitude else magnitude
    if Tick.InRange value then some value else none

/-- The double that a word denotes, in any case. -/
def namedReal? (letters : List Char) : Option Float :=
  match String.ofList (letters.map Char.toLower) with
  | "inf" => some (1.0 / 0.0)
  | "infinity" => some (1.0 / 0.0)
  | "nan" => some (0.0 / 0.0)
  | _ => none

/-- The double that a text denotes: a numeral, or a word after a sign if there is one. -/
def real? (raw : List Char) : Option Float :=
  match Decimal.Numeral.parse? raw with
  | some numeral => some numeral.toFloat
  | none =>
    let (negative, letters) := Decimal.splitSign raw
    (namedReal? letters).map fun value => if negative then -value else value

/-- The value that a text denotes: an integer if it is one, else a real, else the text itself. -/
def valueOf (raw : List Char) : Store.Cell :=
  match integer? raw with
  | some value => .integer value
  | none =>
    match real? raw with
    | some value => .real value
    | none => .text (String.ofList raw)

/-- Reads a parameter. White space around the name and the value does not count, and neither do
colons in front of the name. -/
def parse (given : String) : Except ParameterFault Parameter :=
  match splitAtEquals given.toList with
  | none => .error (.noEquals given)
  | some (before, raw) =>
    match (Text.trimChars before).dropWhile (· == ':') with
    | [] => .error (.noName given)
    | name => .ok ⟨String.ofList (':' :: name), valueOf (Text.trimChars raw)⟩

end Parameter

end GridReport
