import GridReport.Text.Width

/-!
The first statement of a text, and what the database finds in it before it reads it: the parameters,
the words, and the first piece that it does not know.

The database cuts a text by rules of its own. The text ends at the first zero character, and
comments do not nest. The first statement comes after semicolons and ends at the next one; what
follows is not looked at. A parameter is a question mark with digits after it or a name after one of
four signs, outside quotes and comments; no blank stands between a sign and its name.
-/

namespace GridReport.Store.Marks

/-- What a piece of text is. -/
inductive Mark where
  /-- White space or a comment. -/
  | blank
  | semicolon
  | word
  | parameter
  | plain
  | unknown
deriving Repr, DecidableEq

/-- The letter may be part of a name. -/
def inName (c : Char) : Bool := c.isAlphanum || c == '_' || c == '$' || 0x80 ≤ c.toNat

def isHexDigit (c : Char) : Bool :=
  c.isDigit || ('a' ≤ c && c ≤ 'f') || ('A' ≤ c && c ≤ 'F')

/-- The letter may start white space. -/
def isSpace (c : Char) : Bool := c == ' ' || c == '\t' || c == '\n' || c == '\x0c' || c == '\r'

def continuesSpace (c : Char) : Bool := isSpace c || c == '\x0b'

/-- The mark at the front of a file for the order of its bytes, which counts as white space. -/
def byteOrder : Char := '\uFEFF'

/-- The number of letters at the front of a text that pass a test. -/
def run (test : Char → Bool) (chars : List Char) : Nat := (chars.takeWhile test).length

/-- The number of letters up to the closing quote, which may be doubled inside. -/
def closing (quote : Char) : List Char → Option Nat
  | [] => none
  | c :: rest =>
    if c = quote then
      match rest with
      | [] => some 1
      | d :: after => if d = quote then (closing quote after).map (· + 2) else some 1
    else (closing quote rest).map (· + 1)

/-- The number of letters up to the end of a comment, or of the text. -/
def commentSize : List Char → Nat
  | [] => 0
  | '*' :: '/' :: _ => 2
  | _ :: rest => commentSize rest + 1

/-- The number of letters of a numeral in base ten. -/
def decimalSize (chars : List Char) : Nat :=
  let whole := run Char.isDigit chars
  let mantissa :=
    match chars.drop whole with
    | '.' :: rest => whole + 1 + run Char.isDigit rest
    | _ => whole
  let isExponent (c : Char) : Bool := c == 'e' || c == 'E'
  match chars.drop mantissa with
  | e :: s :: d :: rest =>
    if isExponent e && s.isDigit then mantissa + 1 + run Char.isDigit (s :: d :: rest)
    else if isExponent e && (s == '+' || s == '-') && d.isDigit then
      mantissa + 2 + run Char.isDigit (d :: rest)
    else mantissa
  | [e, s] => if isExponent e && s.isDigit then mantissa + 2 else mantissa
  | _ => mantissa

def numeralSize : List Char → Nat
  | '0' :: x :: h :: rest =>
    if (x == 'x' || x == 'X') && isHexDigit h then 2 + run isHexDigit (h :: rest)
    else decimalSize ('0' :: x :: h :: rest)
  | chars => decimalSize chars

/-- The number of letters of a name after the sign of a parameter, and whether there is a name;
`named` says that there are letters of it already. A name may hold doubled colons, and end with
brackets. -/
def nameSize (named : Bool) : List Char → Nat × Bool
  | [] => (0, named)
  | ':' :: ':' :: rest =>
    let (size, isName) := nameSize named rest
    (size + 2, isName)
  | c :: rest =>
    if inName c then
      let (size, isName) := nameSize true rest
      (size + 1, isName)
    else if c = '(' && named then
      let held := run (fun d => !continuesSpace d && d != ')') rest
      if (rest.drop held).head? = some ')' then (held + 2, true) else (held + 1, false)
    else (0, named)

/-- What the piece at the front of a text is, and the number of its letters. -/
def piece : List Char → Mark × Nat
  | [] => (.plain, 0)
  | '-' :: '-' :: rest => (.blank, 2 + run (· != '\n') rest)
  | '/' :: '*' :: c :: rest => (.blank, 2 + commentSize (c :: rest))
  | '!' :: '=' :: _ => (.plain, 2)
  | 'x' :: '\x27' :: rest => bytes rest
  | 'X' :: '\x27' :: rest => bytes rest
  | '?' :: rest => (.parameter, 1 + run Char.isDigit rest)
  | c :: rest =>
    if c == '\x27' || c == '\x22' || c == '\x60' then quoted (closing c rest) rest
    else if c == '[' then
      let held := run (· != ']') rest
      (if held < rest.length then .plain else .unknown, held + 2)
    else if c == '$' || c == '@' || c == '#' || c == ':' then
      let (size, named) := nameSize false rest
      (if named then .parameter else .unknown, 1 + size)
    else if c.isDigit || (c == '.' && (rest.head?.map Char.isDigit).getD false) then
      let size := numeralSize (c :: rest)
      match run inName ((c :: rest).drop size) with
      | 0 => (.plain, size)
      | junk => (.unknown, size + junk)
    else if isSpace c then (.blank, 1 + run continuesSpace rest)
    else if c = byteOrder then (.blank, 1)
    else if inName c then (.word, run inName (c :: rest))
    else if c = ';' then (.semicolon, 1)
    else if "-+*/%|=<>&~,().".toList.contains c then (.plain, 1)
    else (.unknown, 1)
where
  /-- A piece after its opening quote. -/
  quoted (size : Option Nat) (rest : List Char) : Mark × Nat :=
    match size with
    | some n => (.plain, 1 + n)
    | none => (.unknown, 1 + rest.length)
  /-- Bytes after their opening quote. -/
  bytes (rest : List Char) : Mark × Nat :=
    let size := run isHexDigit rest
    match rest.drop size with
    | '\x27' :: _ => (if size % 2 = 0 then .plain else .unknown, size + 3)
    | _ => (.unknown, 2 + run (· != '\x27') rest + 1)

/-- A piece with its text and the bytes in front of it. -/
structure Piece where
  mark : Mark
  text : String
  offset : Nat
deriving Repr, DecidableEq

/-- The pieces of a text, `offset` bytes into it; no more than `fuel` of them are left. -/
def piecesFrom (offset : Nat) : List Char → Nat → List Piece
  | [], _ => []
  | _, 0 => []
  | chars, fuel + 1 =>
    let (mark, size) := piece chars
    let text := chars.take size
    let after := offset + Text.width text
    ⟨mark, String.ofList text, offset⟩ :: piecesFrom after (chars.drop size) fuel

def pieces (text : String) : List Piece :=
  piecesFrom 0 (text.toList.takeWhile (· != '\x00')) text.length

def Piece.isTold (piece : Piece) : Bool := piece.mark != .blank

/-- The piece may stand in front of the first statement. -/
def Piece.isFront (piece : Piece) : Bool := piece.mark == .blank || piece.mark == .semicolon

/-- The pieces of the first statement, with what stands in front of it as blanks. -/
def firstStatement (text : String) : List Piece :=
  let front := (pieces text).takeWhile Piece.isFront
  let rest := (pieces text).dropWhile Piece.isFront
  front.map (fun p => { p with mark := .blank }) ++ rest.takeWhile (·.mark != .semicolon)

def parameters (text : String) : List String :=
  ((firstStatement text).filter fun p => p.mark = .parameter).map Piece.text

def firstUnknown? (statement : List Piece) : Option Piece :=
  statement.find? fun p => p.mark = .unknown

/-- The text of pieces with spaces for what is blank; no piece changes its place. -/
def spelled (statement : List Piece) : String :=
  String.join (statement.map fun p =>
    if p.isTold then p.text else String.ofList (List.replicate (Text.width p.text.toList) ' '))

/-- A word in upper case, and nothing for other pieces. -/
def Piece.keyword (piece : Piece) : String :=
  if piece.mark = .word then piece.text.map Char.toUpper else ""

/-- The word that the first statement of a text opens with, if it opens with a word. -/
def openingWord (text : String) : String :=
  (((pieces text).dropWhile Piece.isFront).head?.map Piece.keyword).getD ""

/-- The words that statements open with which may change something. -/
def changeOpenings : List String :=
  ["ALTER", "ANALYZE", "ATTACH", "BEGIN", "COMMIT", "CREATE", "DELETE", "DETACH", "DROP", "END",
    "INSERT", "PRAGMA", "REINDEX", "RELEASE", "REPLACE", "ROLLBACK", "SAVEPOINT", "UPDATE",
    "VACUUM"]

/-- The words of which each change behind common tables has one; rows are put INTO a table. -/
def changeWords : List String := ["INTO", "UPDATE", "DELETE"]

def hasChangeWord (text : String) : Bool :=
  (firstStatement text).any fun p => changeWords.contains p.keyword

/-- The first statement of a text can only read, or it is none: it does not open like a change, and
behind common tables there is no word of one. -/
def onlyReads (text : String) : Bool :=
  !changeOpenings.contains (openingWord text) &&
    !(openingWord text == "WITH" && hasChangeWord text)

/-- The number of values that parameters take: a question mark takes a new one, a question mark with
a number takes that one, and a name takes a new one where it first stands. -/
def valueCount (names : List String) : Nat :=
  let step (state : Nat × List String) (name : String) : Nat × List String :=
    let (count, known) := state
    match name.toList with
    | ['?'] => (count + 1, known)
    | '?' :: digits => (max count ((String.ofList digits).toNat?.getD 0), known)
    | _ => if known.contains name then (count, known) else (count + 1, name :: known)
  (names.foldl step (0, [])).1

end GridReport.Store.Marks
