import GridReport.Sql.Grammar.Name
import GridReport.Sql.Grammar.Dialect

/-!
Expressions.
-/

namespace GridReport.Sql.Parse

def plainCall (function : List Name) (index : Nat) (arguments : List Expr) : Expr :=
  .call function index false true arguments [] none []

def orderTerm (grammar : Grammar) : Parse OrderTerm := do
  let expression ← grammar.expression
  let descending := (← oneOf? ["ASC", "DESC"]) == some "DESC"
  if ← keywords? ["NULLS", "FIRST"] then return .mk expression descending (some true)
  else if ← keywords? ["NULLS", "LAST"] then return .mk expression descending (some false)
  else return .mk expression descending none

def orderedBy : OrderTerm → Expr
  | .mk expression _ _ => expression

def orderExpressions (grammar : Grammar) : Parse (List Expr) := do
  return (← commaList (orderTerm grammar)).map orderedBy

/-- Takes the value of a literal or a placeholder. A colon or an at sign stands before the name of a
placeholder, with white space allowed between them. -/
def value : Parse Expr := do
  if ← symbol? ":" then return .placeholder (":" ++ (← placeholderName))
  else if ← symbol? "@" then return .placeholder ("@" ++ (← placeholderName))
  else takeAs fun
    | .word ⟨letters, some '\x22'⟩ => some (.literal (.text letters))
    | .word ⟨letters, none⟩ =>
      match Text.upper letters with
      | "TRUE" => some (.literal (.boolean true))
      | "FALSE" => some (.literal (.boolean false))
      | "NULL" => some (.literal .null)
      | _ => none
    | .number digits _ => some (.literal (.number digits))
    | .text content => some (.literal (.text content))
    | .national content => some (.literal (.national content))
    | .hex digits => some (.literal (.hex digits))
    | .hexNumber digits => some (.literal (.hexNumber digits))
    | .positional mark => some (.placeholder mark)
    | _ => none
where
  /-- Takes the name of a placeholder. -/
  placeholderName : Parse String := takeAs fun
    | .word word => some word.value
    | .number digits false => some digits
    | _ => none

def pathRest : Nat → Parse (List Name)
  | 0 => failure
  | fuel + 1 => do
    if ← symbol? "." then return (← name) :: (← pathRest fuel) else return []

/-- Takes an expression, or the asterisk that stands for all columns, of one table or of all. -/
def wildcardOr (grammar : Grammar) : Parse Expr :=
  (do
    symbol "*"
    return .wildcard []) <|>
  (do
    let head ← name
    return .wildcard (head :: (← wildcardRest ((← get).length + 1)))) <|>
  grammar.expression
where
  /-- Takes names after points up to the asterisk. -/
  wildcardRest : Nat → Parse (List Name)
    | 0 => failure
    | fuel + 1 => do
      symbol "."
      if ← symbol? "*" then return [] else return (← name) :: (← wildcardRest fuel)

/-- Takes an argument of a function, which may be given by its name. -/
def argument (grammar : Grammar) : Parse Expr := do
  if ← symbolAt 1 "=>" then do
    let _ ← name
    symbol "=>"
  wildcardOr grammar

/-- Takes what to do if a list grows too long. -/
def overflow? (grammar : Grammar) : Parse (List Expr) := do
  if ← keywords? ["ON", "OVERFLOW"] then
    if ← keyword? "ERROR" then return []
    else do
      keyword "TRUNCATE"
      let filler ← match ← peek? with
        | some (.text _) => do pure [← grammar.expression]
        | some (.hex _) => do pure [← grammar.expression]
        | some (.hexNumber _) => do pure [← grammar.expression]
        | some (.national _) => do pure [← grammar.expression]
        | _ => pure []
      let _ ← oneOf ["WITH", "WITHOUT"]
      keyword "COUNT"
      return filler
  else return []

structure Arguments where
  isDistinct : Bool
  arguments : List Expr
  clauses : List Expr

/-- Takes the arguments of a call whose bracket has been taken. -/
def arguments (grammar : Grammar) : Parse Arguments := do
  if ← symbol? ")" then return ⟨false, [], []⟩
  else do
    let all ← keyword? "ALL"
    let isDistinct ← keyword? "DISTINCT"
    if all && isDistinct then failure
    let given ← commaList (argument grammar)
    let order ← listAfter ["ORDER", "BY"] (orderExpressions grammar)
    let limit ← after? "LIMIT" grammar.expression
    let overflow ← overflow? grammar
    symbol ")"
    return ⟨isDistinct, given, order ++ limit.toList ++ overflow⟩

def frameBound (grammar : Grammar) : Parse (List Expr) := do
  if ← keywords? ["CURRENT", "ROW"] then return []
  else do
    let rows ← if ← keyword? "UNBOUNDED" then pure [] else do pure [← grammar.expression]
    let _ ← oneOf ["PRECEDING", "FOLLOWING"]
    return rows

def windowFrame (grammar : Grammar) : Parse (List Expr) := do
  let _ ← oneOf ["ROWS", "RANGE", "GROUPS"]
  if ← keyword? "BETWEEN" then do
    let start ← frameBound grammar
    keyword "AND"
    return start ++ (← frameBound grammar)
  else frameBound grammar

/-- Takes a window whose bracket has been taken. -/
def windowRest (grammar : Grammar) : Parse (List Expr) := do
  match ← peek? with
  | some (.word word) =>
    if word.quote.isSome || !Sql.keywords.contains (Text.upper word.value) then do
      let _ ← take
  | _ => pure ()
  let partition ← listAfter ["PARTITION", "BY"] grammar.expressions
  let order ← listAfter ["ORDER", "BY"] (orderExpressions grammar)
  if ← symbol? ")" then return partition ++ order
  else do
    let frame ← windowFrame grammar
    symbol ")"
    return partition ++ order ++ frame

/-- Takes a call whose name, `index` tokens into the text, has been taken. -/
def call (grammar : Grammar) (function : List Name) (index : Nat) : Parse Expr := do
  symbol "("
  let given ← arguments grammar
  let within ← listAfter ["WITHIN", "GROUP"] (bracketed do
    keywords ["ORDER", "BY"]
    orderExpressions grammar)
  let filter ← after? "FILTER" (bracketed do
    keyword "WHERE"
    grammar.expression)
  if (← oneOf? ["IGNORE", "RESPECT"]).isSome then keyword "NULLS"
  let window ← after? "OVER" (do
    if ← symbol? "(" then windowRest grammar
    else do
      let _ ← name
      return [])
  let isPlain := given.clauses.isEmpty && within.isEmpty && window.isNone
  return .call function index given.isDistinct isPlain given.arguments given.clauses filter
    (window.getD [] ++ within)

/-- Takes what follows a word that names a column or a function, `index` tokens into the text. -/
def named (grammar : Grammar) (head : Name) (index : Nat) : Parse Expr := do
  let path := head :: (← pathRest ((← get).length + 1))
  if ← symbolAt 0 "(" then call grammar path index
  else
    match path, ← peek? with
    | [word], some (.text _) =>
      if word.value.startsWith "_" then do
        let introduced ← value
        return .form word.value [introduced]
      else return .column path index
    | [word], some (.hex _) =>
      if word.value.startsWith "_" then do
        let introduced ← value
        return .form word.value [introduced]
      else return .column path index
    | [word], some (.hexNumber _) =>
      if word.value.startsWith "_" then do
        let introduced ← value
        return .form word.value [introduced]
      else return .column path index
    | _, _ => return .column path index

def dateField : Parse Unit := do
  let _ ← oneOf dateFields

/-- Takes the conditions and the results of a choice; no more than `fuel` pairs are left. -/
def choiceFrom (grammar : Grammar) : Nat → Parse (List (Expr × Expr))
  | 0 => failure
  | fuel + 1 => do
    let condition ← grammar.expression
    keyword "THEN"
    let result ← grammar.expression
    if ← keyword? "WHEN" then return (condition, result) :: (← choiceFrom grammar fuel)
    else return [(condition, result)]

def choice (grammar : Grammar) : Parse Expr := do
  let operand ← if ← keyword? "WHEN" then pure none
    else do
      let operand ← grammar.expression
      keyword "WHEN"
      pure (some operand)
  let pairs ← choiceFrom grammar ((← get).length + 1)
  let otherwise ← after? "ELSE" grammar.expression
  keyword "END"
  return .choice operand (pairs.map (·.1)) (pairs.map (·.2)) otherwise

def cast (grammar : Grammar) : Parse Expr := bracketed do
  let operand ← grammar.expression
  keyword "AS"
  let (type, _) ← typeName
  if ← keyword? "FORMAT" then do
    let _ ← value
    if ← keywords? ["AT", "TIME", "ZONE"] then do
      let _ ← value
  return .cast operand type

def conversion (grammar : Grammar) : Parse Expr := bracketed do
  let operand ← grammar.expression
  if ← keyword? "USING" then do
    let _ ← path
    return .form "CONVERT" [operand]
  else do
    symbol ","
    let (type, _) ← typeName
    if ← keywords? ["CHARACTER", "SET"] then do
      let _ ← path
    return .cast operand type

/-- Takes a part of a date taken out of an expression. -/
def extraction (grammar : Grammar) : Parse Expr := bracketed do
  dateField
  keyword "FROM"
  return .form "EXTRACT" [← grammar.expression]

def rounding (grammar : Grammar) (word : Name) (index : Nat) : Parse Expr := bracketed do
  let operand ← grammar.expression
  if ← keyword? "TO" then do
    dateField
    return .form word.value [operand]
  else return plainCall [word] index [operand]

def position (grammar : Grammar) (word : Name) (index : Nat) : Parse Expr :=
  (bracketed do
    let wanted ← grammar.tighter grammar.dialect.bounds
    keyword "IN"
    return .form "POSITION" [wanted, ← grammar.expression]) <|>
  call grammar [word] index

/-- Takes a part of a text after its first word. -/
def substring (grammar : Grammar) (word : Name) (index : Nat) : Parse Expr := bracketed do
  let whole ← grammar.expression
  let special ← symbol? ","
  let start ← if special then some <$> grammar.expression else after? "FROM" grammar.expression
  let second ← if special then symbol? "," else pure false
  let count ← if second then some <$> grammar.expression else after? "FOR" grammar.expression
  return plainCall [word] index (whole :: start.toList ++ count.toList)

/-- Takes a replacement of a part of a text after its first word. -/
def overlay (grammar : Grammar) : Parse Expr := bracketed do
  let whole ← grammar.expression
  keyword "PLACING"
  let part ← grammar.expression
  keyword "FROM"
  let start ← grammar.expression
  let count ← after? "FOR" grammar.expression
  return .form "OVERLAY" ([whole, part, start] ++ count.toList)

/-- Takes a trimming after its first word. The text that is trimmed is visited first. -/
def trimming (grammar : Grammar) (word : Name) (index : Nat) : Parse Expr := bracketed do
  let side ← oneOf? ["BOTH", "LEADING", "TRAILING"]
  let first ← grammar.expression
  if ← keyword? "FROM" then return .form "TRIM" [← grammar.expression, first]
  else if side.isSome then return .form "TRIM" [first]
  else return plainCall [word] index [first]

/-- Takes an interval of time after its first word. -/
def interval (grammar : Grammar) : Parse Expr := do
  let amount ← grammar.tighter 100
  match ← oneOf? dateFields with
  | some "SECOND" => scale?
  | _ => do
    precision?
    if ← keyword? "TO" then
      if ← keyword? "SECOND" then precision? else dateField
  return .form "INTERVAL" [amount]

def typedText (grammar : Grammar) : Parse Expr := do
  if (← keywordAt 0) == "INTERVAL" then do
    let _ ← take
    interval grammar
  else do
    let (type, isKnown) ← typeName
    unless isKnown do failure
    let content ← textLiteral
    return .cast (.literal (.text content)) type

/-- Takes a query in brackets whose words come next. -/
def subquery (grammar : Grammar) : Parse Query := bracketed grammar.query

def negation (grammar : Grammar) : Parse Expr := do
  if ← keyword? "EXISTS" then return .existence true (← subquery grammar)
  else return .unary "NOT" (← grammar.tighter grammar.dialect.negation)

/-- Takes what stands in brackets after the first of them: a query, an expression or a row. -/
def bracketRest (grammar : Grammar) : Parse Expr := do
  let word ← keywordAt 0
  let inner ← if word == "SELECT" || word == "WITH" then Expr.scalar <$> grammar.query
    else do
      match ← grammar.expressions with
      | [single] => pure (.nested single)
      | several => pure (.tuple several)
  symbol ")"
  if ← symbol? "." then
    match (← take).token with
    | .word word => return .form word.value [inner]
    | _ => failure
  else return inner

def worded (grammar : Grammar) (word : Name) (index : Nat) : Parse Expr := do
  match Text.upper word.value with
  | "TRUE" => return .literal (.boolean true)
  | "FALSE" => return .literal (.boolean false)
  | "NULL" => return .literal .null
  | "CASE" => choice grammar
  | "CAST" => cast grammar
  | "TRY_CAST" => cast grammar
  | "SAFE_CAST" => cast grammar
  | "CONVERT" => conversion grammar
  | "EXISTS" => return .existence false (← subquery grammar)
  | "EXTRACT" => extraction grammar
  | "CEIL" => rounding grammar word index
  | "FLOOR" => rounding grammar word index
  | "POSITION" =>
    if ← symbolAt 0 "(" then position grammar word index else named grammar word index
  | "SUBSTRING" => substring grammar word index
  | "OVERLAY" => overlay grammar
  | "TRIM" => trimming grammar word index
  | "INTERVAL" => interval grammar
  | "NOT" => negation grammar
  | "ARRAY" =>
    if ← symbolAt 0 "(" then return .form "ARRAY" [.scalar (← subquery grammar)]
    else named grammar word index
  | "CURRENT_TIMESTAMP" => timeFunction
  | "CURRENT_TIME" => timeFunction
  | "CURRENT_DATE" => timeFunction
  | "LOCALTIME" => timeFunction
  | "LOCALTIMESTAMP" => timeFunction
  | _ => named grammar word index
where
  /-- Takes the arguments of a function that tells the time. -/
  timeFunction : Parse Expr := do
    if ← symbol? "(" then do
      let given ← arguments grammar
      return .call [word] index given.isDistinct given.clauses.isEmpty given.arguments
        given.clauses none []
    else return plainCall [word] index []

/-- Takes the start of an expression, without what follows it. -/
def head (grammar : Grammar) : Parse Expr := do
  let lexeme ← take
  match lexeme.token with
  | .word ⟨letters, none⟩ => worded grammar ⟨letters, none⟩ lexeme.index
  | .word word => named grammar word lexeme.index
  | .symbol "-" => return .unary "-" (← grammar.tighter grammar.dialect.sign)
  | .symbol "+" => return .unary "+" (← grammar.tighter grammar.dialect.sign)
  | .symbol "(" => bracketRest grammar
  | .escaped _ => failure
  | _ => do
    modify (lexeme :: ·)
    value

/-- Takes the start of an expression and the collation after it. -/
def operand (grammar : Grammar) : Parse Expr := do
  let start ← typedText grammar <|> head grammar
  if ← keyword? "COLLATE" then return .collate start (← path) else return start

/-- The symbols that stand between two operands. -/
def infixSymbols : List String :=
  ["<=>", "==", "=", "<>", "!=", ">", ">=", "<", "<=", "+", "-", "*", "/", "%", "||", "|", "^", "&",
    "~", "~*", "!~", "!~*", "~~", "~~*", "!~~", "!~~*", "->", "->>", "#>", "#>>", "@>", "<@", "#-",
    "@?", "@@"]

/-- The operators that compare with a whole set. -/
def comparisons : List String := [">", "<", ">=", "<=", "=", "<>", "!="]

def rightSide (grammar : Grammar) (operator : String) (left : Expr) (rank : Nat) :
    Parse Expr := do
  match ← oneOf? ["ANY", "ALL"] with
  | none => return .binary operator left (← grammar.tighter rank)
  | some quantifier => do
    let isQuery := (← symbolAt 0 "(") && ["SELECT", "WITH"].contains (← keywordAt 1)
    let right ← if isQuery then grammar.tighter rank else bracketed (grammar.tighter rank)
    unless comparisons.contains operator do failure
    return .quantified operator quantifier left right

/-- Takes the set of `IN`. -/
def membership (grammar : Grammar) (negated : Bool) (left : Expr) : Parse Expr := do
  if ← keyword? "UNNEST" then return .form "UNNEST" [left, ← bracketed grammar.expression]
  else bracketed do
    let word ← keywordAt 0
    if word == "SELECT" || word == "WITH" then return .inQuery negated left (← grammar.query)
    else if ← symbolAt 0 ")" then return .inList negated left []
    else return .inList negated left (← grammar.expressions)

def bounds (grammar : Grammar) (negated : Bool) (left : Expr) : Parse Expr := do
  let low ← grammar.tighter grammar.dialect.bounds
  keyword "AND"
  return .between negated left low (← grammar.tighter grammar.dialect.bounds)

/-- Takes the pattern of `LIKE` and its like, and the escape after it. -/
def pattern (grammar : Grammar) (word : String) (negated : Bool) (left : Expr) : Parse Expr := do
  let right ← grammar.tighter grammar.dialect.pattern
  return .matching word negated left right (← after? "ESCAPE" textLiteral)

def testRest (grammar : Grammar) (negated : Bool) (left : Expr) : Parse Expr := do
  if ← keyword? "REGEXP" then
    return .matching "REGEXP" negated left (← grammar.tighter grammar.dialect.pattern) none
  else if ← keyword? "RLIKE" then
    return .matching "RLIKE" negated left (← grammar.tighter grammar.dialect.pattern) none
  else if ← keyword? "IN" then membership grammar negated left
  else if ← keyword? "BETWEEN" then bounds grammar negated left
  else if ← keyword? "LIKE" then pattern grammar "LIKE" negated left
  else if ← keyword? "ILIKE" then pattern grammar "ILIKE" negated left
  else do
    keywords ["SIMILAR", "TO"]
    pattern grammar "SIMILAR TO" negated left

/-- Takes what `IS` asks. -/
def question (grammar : Grammar) (left : Expr) : Parse Expr := do
  let negated ← keyword? "NOT"
  match ← oneOf ["NULL", "TRUE", "FALSE", "UNKNOWN", "DISTINCT"] with
  | "NULL" => return .truth negated .null left
  | "TRUE" => return .truth negated .isTrue left
  | "FALSE" => return .truth negated .isFalse left
  | "UNKNOWN" => return .truth negated .unknown left
  | _ => do
    keyword "FROM"
    return .distinct negated left (← grammar.expression)

/-- Takes an operator and its right side. -/
def continued (grammar : Grammar) (left : Expr) (rank : Nat) : Parse Expr := do
  let lexeme ← take
  match lexeme.token with
  | .symbol "::" => return .cast left (← typeName).1
  | .symbol "!" => return .unary "!" left
  | .symbol spelling =>
    if infixSymbols.contains spelling then rightSide grammar spelling left rank else failure
  | token =>
    match token.keyword with
    | "AND" => rightSide grammar "AND" left rank
    | "OR" => rightSide grammar "OR" left rank
    | "XOR" => rightSide grammar "XOR" left rank
    | "DIV" => rightSide grammar "DIV" left rank
    | "IS" => question grammar left
    | "AT" => do
      keywords ["TIME", "ZONE"]
      return .form "AT TIME ZONE" [left, ← grammar.tighter rank]
    | "NOT" => testRest grammar true left
    | "OPERATOR" => failure
    | _ => do
      modify (lexeme :: ·)
      testRest grammar false left

/-- Takes operators that bind more tightly than a rank; no more than `fuel` of them are left. -/
def continuedFrom (grammar : Grammar) (rank : Nat) (left : Expr) : Nat → Parse Expr
  | 0 => return left
  | fuel + 1 => do
    let next := grammar.dialect.next (← get)
    if next ≤ rank then return left
    else do
      let whole ← continued grammar left next
      continuedFrom grammar rank whole fuel

/-- Takes an expression whose operators bind more tightly than a rank. -/
def expression (grammar : Grammar) (rank : Nat) : Parse Expr := do
  let left ← operand grammar
  continuedFrom grammar rank left ((← get).length + 1)

end GridReport.Sql.Parse
