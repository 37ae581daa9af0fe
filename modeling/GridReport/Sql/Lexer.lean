import GridReport.Sql.Token
import GridReport.Text.Blank
import GridReport.Text.Width

/-!
SQL text cut into tokens.

Each step takes a piece off the front of the text; the pieces in a row are the text. There is no
piece at the front only if a quote or a comment is not closed.
-/

namespace GridReport.Sql.Lexer

/-- A token, the text it takes and the text after it. -/
structure Piece where
  token : Token
  source : List Char
  rest : List Char

/-- The letter may start a name: an ASCII letter, an underscore, a dollar sign, or anything from
U+007F to U+FFFF. -/
def startsName (c : Char) : Bool :=
  c.isAlpha || c == '_' || c == '$' || (0x7F ≤ c.toNat && c.toNat ≤ 0xFFFF)

def continuesName (c : Char) : Bool := startsName c || c.isDigit

def isHexDigit (c : Char) : Bool :=
  c.isDigit || ('a' ≤ c && c ≤ 'f') || ('A' ≤ c && c ≤ 'F')

/-- A value in quotes, the text it takes with the closing quote, and the text after it. -/
structure Quoted where
  value : List Char
  source : List Char
  rest : List Char

/-- Puts one character in front of a quoted value, and its spelling in front of the text. -/
def Quoted.push (meant : Char) (spelling : List Char) (tail : Quoted) : Quoted :=
  ⟨meant :: tail.value, spelling ++ tail.source, tail.rest⟩

/-- The text up to the closing quote. A closing quote that is doubled is one of the value. -/
def quoted (close : Char) : List Char → Option Quoted
  | [] => none
  | c :: rest =>
    if c = close then
      match rest with
      | [] => some ⟨[], [c], []⟩
      | d :: after =>
        if d = close then (quoted close after).map (Quoted.push close [c, d])
        else some ⟨[], [c], d :: after⟩
    else (quoted close rest).map (Quoted.push c [c])

/-- The character that a letter after a backslash stands for. -/
def escapeMeaning : Char → Char
  | '0' => '\x00'
  | 'a' => '\x07'
  | 'b' => '\x08'
  | 'f' => '\x0c'
  | 'n' => '\n'
  | 'r' => '\r'
  | 't' => '\t'
  | 'Z' => '\x1a'
  | c => c

/-- The text up to the closing single quote, with escapes by backslash. -/
def quotedWithEscapes : List Char → Option Quoted
  | [] => none
  | '\\' :: c :: rest =>
    (quotedWithEscapes rest).map (Quoted.push (escapeMeaning c) ['\\', c])
  | '\x27' :: '\x27' :: rest =>
    (quotedWithEscapes rest).map (Quoted.push '\x27' ['\x27', '\x27'])
  | '\x27' :: rest => some ⟨[], ['\x27'], rest⟩
  | c :: rest => (quotedWithEscapes rest).map (Quoted.push c [c])

/-- The text of a comment up to its end, and the text after it. Comments nest; a slash or an
asterisk may belong to two marks. -/
def blockComment (depth : Nat) (last : Char) : List Char → Option (List Char × List Char)
  | [] => none
  | c :: rest =>
    if last = '/' && c = '*' then
      (blockComment (depth + 1) c rest).map fun (source, after) => (c :: source, after)
    else if last = '*' && c = '/' then
      match depth with
      | 0 => some ([c], rest)
      | outer + 1 => (blockComment outer c rest).map fun (source, after) => (c :: source, after)
    else (blockComment depth c rest).map fun (source, after) => (c :: source, after)

def lineComment (chars : List Char) : List Char × List Char :=
  let line := chars.takeWhile (· != '\n')
  match chars.dropWhile (· != '\n') with
  | newline :: rest => (line ++ [newline], rest)
  | [] => (line, [])

def longSymbols : List (List Char) :=
  ["!~~*", "->>", "||/", "<=>", "!~*", "!~~", "~~*", "#>>", "->", "||", "|/", "=>", "==", "!=",
    "!!", "!~", "<=", "<>", "<<", "<@", ">=", ">>", "::", ":=", "&&", "^@", "@>", "@?", "@@", "#-",
    "#>", "~*", "~~"].map String.toList

def symbol (chars : List Char) : Option Piece :=
  match longSymbols.find? (·.isPrefixOf chars), chars with
  | some spelling, _ =>
    some ⟨.symbol (String.ofList spelling), spelling, chars.drop spelling.length⟩
  | none, c :: rest => some ⟨.symbol (String.singleton c), [c], rest⟩
  | none, [] => none

/-- The digits of an exponent with its letter and sign, if they are complete. -/
def exponentDigits (chars : List Char) : List Char :=
  match chars with
  | letter :: rest =>
    if letter = 'e' || letter = 'E' then
      let sign := rest.takeWhile (fun c => c == '+' || c == '-') |>.take 1
      let digits := (rest.drop sign.length).takeWhile Char.isDigit
      if digits.isEmpty then [] else letter :: sign ++ digits
    else []
  | [] => []

/-- The piece of a number, or of a point that no digits surround. -/
def number (chars : List Char) : Option Piece :=
  let head := chars.takeWhile Char.isDigit
  let afterHead := chars.dropWhile Char.isDigit
  match head, afterHead with
  | ['0'], 'x' :: rest =>
    let digits := rest.takeWhile isHexDigit
    some ⟨.hexNumber (String.ofList digits), '0' :: 'x' :: digits, rest.dropWhile isHexDigit⟩
  | _, _ =>
    let point := afterHead.take 1 |>.filter (· == '.')
    let afterPoint := afterHead.drop point.length
    let tail := if point.isEmpty then [] else afterPoint.takeWhile Char.isDigit
    let mantissa := head ++ point ++ tail
    if mantissa == ['.'] then some ⟨.symbol ".", ['.'], afterPoint⟩
    else
      let power := exponentDigits (afterPoint.drop tail.length)
      let digits := mantissa ++ power
      let rest := afterPoint.drop (tail.length + power.length)
      match rest with
      | 'L' :: after => some ⟨.number (String.ofList digits) true, digits ++ ['L'], after⟩
      | _ => some ⟨.number (String.ofList digits) false, digits, rest⟩

def word (chars : List Char) : Option Piece :=
  let letters := chars.takeWhile continuesName
  some ⟨.word ⟨String.ofList letters, none⟩, letters, chars.dropWhile continuesName⟩

def quotedWord (opening close : Char) (chars : List Char) : Option Piece :=
  (quoted close chars).map fun q =>
    ⟨.word ⟨String.ofList q.value, some opening⟩, opening :: q.source, q.rest⟩

def literal (kind : String → Token) (opening : List Char) (body : Option Quoted) : Option Piece :=
  body.map fun q => ⟨kind (String.ofList q.value), opening ++ q.source, q.rest⟩

def piece : List Char → Option Piece
  | [] => none
  | '\r' :: '\n' :: rest => some ⟨.blank, ['\r', '\n'], rest⟩
  | '-' :: '-' :: rest =>
    let (line, after) := lineComment rest
    some ⟨.blank, '-' :: '-' :: line, after⟩
  | '/' :: '*' :: rest =>
    (blockComment 0 ' ' rest).map fun (source, after) => ⟨.blank, '/' :: '*' :: source, after⟩
  | '\x27' :: rest => literal .text ['\x27'] (quoted '\x27' rest)
  | 'n' :: '\x27' :: rest => literal .national ['n', '\x27'] (quotedWithEscapes rest)
  | 'N' :: '\x27' :: rest => literal .national ['N', '\x27'] (quotedWithEscapes rest)
  | 'e' :: '\x27' :: rest => literal .escaped ['e', '\x27'] (quotedWithEscapes rest)
  | 'E' :: '\x27' :: rest => literal .escaped ['E', '\x27'] (quotedWithEscapes rest)
  | 'x' :: '\x27' :: rest => literal .hex ['x', '\x27'] (quotedWithEscapes rest)
  | 'X' :: '\x27' :: rest => literal .hex ['X', '\x27'] (quotedWithEscapes rest)
  | '\x22' :: rest => quotedWord '\x22' '\x22' rest
  | '\x60' :: rest => quotedWord '\x60' '\x60' rest
  | '[' :: rest => quotedWord '[' ']' rest
  | '?' :: rest =>
    let digits := rest.takeWhile Char.isDigit
    some ⟨.positional (String.ofList ('?' :: digits)), '?' :: digits, rest.dropWhile Char.isDigit⟩
  | c :: rest =>
    if c = ' ' || c = '\t' || c = '\n' || c = '\r' then some ⟨.blank, [c], rest⟩
    else if startsName c then word (c :: rest)
    else if c.isDigit || c = '.' then number (c :: rest)
    else if Text.isBlank c then some ⟨.blank, [c], rest⟩
    else symbol (c :: rest)

/-- The pieces of a text; no more than `fuel` of them are left. -/
def piecesFrom : List Char → Nat → Option (List Piece)
  | [], _ => some []
  | _, 0 => none
  | chars, fuel + 1 =>
    (piece chars).bind fun p => (piecesFrom p.rest fuel).map (p :: ·)

/-- The pieces of a text, unless a quote or a comment in it is not closed. -/
def pieces (text : String) : Option (List Piece) := piecesFrom text.toList text.length

/-- The tokens among pieces, `index` tokens into a text and after a gap. What stands in front of the
first token is left out. -/
def lexemesFrom (index : Nat) (gap : List Char) : List Piece → List Lexeme
  | [] => []
  | p :: rest =>
    if p.token = .blank then lexemesFrom index (gap ++ p.source) rest
    else
      let between := if index = 0 then "" else String.ofList gap
      ⟨p.token, between, String.ofList p.source, index⟩ :: lexemesFrom (index + 1) [] rest

/-- The tokens of a text, unless a quote or a comment in it is not closed. -/
def lex (text : String) : Option (List Lexeme) := (pieces text).map (lexemesFrom 0 [])

/-- The bytes in front of the token that has `index` tokens in front of it. -/
def offsetAmong : List Piece → Nat → Nat
  | [], _ => 0
  | p :: rest, index =>
    if p.token = .blank then Text.width p.source + offsetAmong rest index
    else
      match index with
      | 0 => 0
      | before + 1 => Text.width p.source + offsetAmong rest before

/-- The bytes of a text in front of a token. -/
def offsetOf (text : String) (index : Nat) : Nat :=
  ((pieces text).map fun all => offsetAmong all index).getD 0

end GridReport.Sql.Lexer
