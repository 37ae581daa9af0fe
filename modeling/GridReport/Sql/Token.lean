import GridReport.Text.Upper

/-!
Words, literals and symbols of SQL text.
-/

namespace GridReport.Sql

/-- A name, and the character that opens its quotes if it has any. -/
structure Name where
  value : String
  quote : Option Char
deriving Repr, DecidableEq

/-- What a piece of SQL text is. -/
inductive Token where
  /-- White space or a comment. -/
  | blank
  | word (name : Name)
  /-- A number; `long` says that it ends with the letter `L`. -/
  | number (digits : String) (long : Bool)
  /-- A text in single quotes. -/
  | text (value : String)
  /-- A text in single quotes after `N`. -/
  | national (value : String)
  /-- A text in single quotes after `E`. -/
  | escaped (value : String)
  /-- Bytes as digits in base sixteen, in quotes after `X`. -/
  | hex (digits : String)
  /-- A number in base sixteen, after `0x`. -/
  | hexNumber (digits : String)
  /-- A question mark with the digits after it. -/
  | positional (mark : String)
  | symbol (spelling : String)
deriving Repr, DecidableEq

def Token.keyword : Token → String
  | .word ⟨value, none⟩ => Text.upper value
  | _ => ""

def Token.isKeyword (token : Token) (keyword : String) : Bool := token.keyword == keyword

/-- A token with the text between it and the token before it, its own text, and the number of tokens
in front of it. -/
structure Lexeme where
  token : Token
  gap : String
  source : String
  index : Nat
deriving Repr, DecidableEq

end GridReport.Sql
