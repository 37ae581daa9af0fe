/-!
Why a text is not a document, and where.
-/

namespace GridReport.Json

/-- What a typed reader met in place of the value it wanted. -/
inductive Unexpected where
  | boolean (value : Bool)
  | integer (value : Int)
  | real (written : String)
  | text (value : String)
  | null
  | sequence
  | map
deriving Repr, DecidableEq

def Unexpected.spelling : Unexpected → String
  | .boolean value => "boolean `" ++ (if value then "true" else "false") ++ "`"
  | .integer value => "integer `" ++ toString value ++ "`"
  | .real written => "floating point `" ++ written ++ "`"
  | .text value => "string \"" ++ value ++ "\""
  | .null => "null"
  | .sequence => "sequence"
  | .map => "map"

inductive Reason where
  | endInValue
  | endInObject
  | endInList
  | endInString
  | expectedValue
  | expectedColon
  | expectedCommaOrBrace
  | expectedCommaOrBracket
  | trailingComma
  | trailingCharacters
  | keyNotString
  | expectedIdent
  | invalidNumber
  | numberOutOfRange
  | invalidEscape
  | loneSurrogate
  | endOfHexEscape
  | controlCharacter
  | tooDeep
  | missingField (name : String)
  | duplicateField (name : String)
  | invalidType (found : Unexpected) (expected : String)
  | invalidLength (count : Nat) (expected : String)
deriving Repr, DecidableEq

def Reason.message : Reason → String
  | .endInValue => "EOF while parsing a value"
  | .endInObject => "EOF while parsing an object"
  | .endInList => "EOF while parsing a list"
  | .endInString => "EOF while parsing a string"
  | .expectedValue => "expected value"
  | .expectedColon => "expected `:`"
  | .expectedCommaOrBrace => "expected `,` or `\x7d`"
  | .expectedCommaOrBracket => "expected `,` or `]`"
  | .trailingComma => "trailing comma"
  | .trailingCharacters => "trailing characters"
  | .keyNotString => "key must be a string"
  | .expectedIdent => "expected ident"
  | .invalidNumber => "invalid number"
  | .numberOutOfRange => "number out of range"
  | .invalidEscape => "invalid escape"
  | .loneSurrogate => "lone leading surrogate in hex escape"
  | .endOfHexEscape => "unexpected end of hex escape"
  | .controlCharacter => "control character (\\u0000-\\u001F) found while parsing a string"
  | .tooDeep => "recursion limit exceeded"
  | .missingField name => "missing field `" ++ name ++ "`"
  | .duplicateField name => "duplicate field `" ++ name ++ "`"
  | .invalidType found expected => "invalid type: " ++ found.spelling ++ ", expected " ++ expected
  | .invalidLength count expected =>
    "invalid length " ++ toString count ++ ", expected " ++ expected

/-- A reason with the line and the byte column of the last byte read. -/
structure Fault where
  reason : Reason
  line : Nat
  column : Nat
deriving Repr, DecidableEq

def Fault.message (fault : Fault) : String :=
  fault.reason.message ++ " at line " ++ toString fault.line ++ " column " ++
    toString fault.column

end GridReport.Json
