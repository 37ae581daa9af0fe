import GridReport.Sql.Grammar.Definition
import GridReport.Sql.Lexer

/-!
Statements, and texts of several statements.
-/

namespace GridReport.Sql.Parse

def deletion (grammar : Grammar) : Parse Statement := do
  unless ← keyword? "FROM" do
    let _ ← commaList path
    keyword "FROM"
  let sources ← commaList (source grammar)
  let _ ← listAfter ["USING"] (commaList (source grammar))
  let condition ← after? "WHERE" grammar.expression
  let _ ← returned? grammar
  let _ ← listAfter ["ORDER", "BY"] (commaList (orderTerm grammar))
  let _ ← after? "LIMIT" grammar.expression
  return .delete sources condition

def transactionMode : Parse Unit := do
  if ← keywords? ["ISOLATION", "LEVEL"] then
    if ← keywords? ["READ", "UNCOMMITTED"] then return ()
    else if ← keywords? ["READ", "COMMITTED"] then return ()
    else if ← keywords? ["REPEATABLE", "READ"] then return ()
    else keyword "SERIALIZABLE"
  else if ← keywords? ["READ", "ONLY"] then return ()
  else keywords ["READ", "WRITE"]

/-- Takes the modes of a transaction; no more than `fuel` of them are left. -/
def transactionModesFrom (required : Bool) : Nat → Parse Unit
  | 0 => return ()
  | fuel + 1 => do
    match ← attempt transactionMode with
    | some () => do transactionModesFrom (← symbol? ",") fuel
    | none => if required then failure

def transactionModes : Parse Unit := do
  transactionModesFrom false ((← get).length + 1)

/-- Takes what follows the end of a transaction. -/
def chain : Parse Unit := do
  let _ ← oneOf? ["TRANSACTION", "WORK"]
  if ← keyword? "AND" then do
    let _ ← keyword? "NO"
    keyword "CHAIN"

def settingValue : Parse Unit := do
  match (← take).token with
  | .number _ _ => return ()
  | .text _ => return ()
  | .word ⟨_, some '\x22'⟩ => return ()
  | .positional _ => return ()
  | .symbol sign =>
    if sign == ":" || sign == "@" then do
      match (← take).token with
      | .word _ => return ()
      | .number _ false => return ()
      | _ => failure
    else failure
  | _ => failure

/-- Takes a setting of the database after its first word. -/
def setting : Parse StatementKind := do
  let _ ← path
  if ← symbolAt 0 "(" then bracketed settingValue
  else if ← symbol? "=" then settingValue
  return .other

/-- Takes the sign or the word in front of the value of a variable. -/
def assigns? : Parse Bool := do
  if ← symbol? "=" then return true else keyword? "TO"

/-- Takes a variable that is set, after the first word. -/
def assignedVariable (grammar : Grammar) : Parse StatementKind := do
  let _ ← oneOf? ["SESSION", "LOCAL"]
  if ← keyword? "ROLE" then do
    let _ ← name
  else if ← keywords? ["TRANSACTION", "SNAPSHOT"] then do
    let _ ← value
  else if (← keywordAt 0) == "TRANSACTION" && !(← symbolAt 1 "=") then do
    keyword "TRANSACTION"
    transactionModes
  else do
    if ← keywords? ["TIME", "ZONE"] then
      unless ← assigns? do
        let _ ← grammar.expression
        return .other
    else do
      let _ ← path
      unless ← assigns? do failure
    let _ ← grammar.expressions
  return .other

def analysisPart? (grammar : Grammar) : Parse (Option Unit) := do
  if ← keyword? "PARTITION" then some <$> (do let _ ← bracketed grammar.expressions)
  else if ← keyword? "NOSCAN" then return some ()
  else if ← keywords? ["FOR", "COLUMNS"] then do
    let _ ← attempt (commaList name)
    return some ()
  else if ← keywords? ["CACHE", "METADATA"] then return some ()
  else if ← keywords? ["COMPUTE", "STATISTICS"] then return some ()
  else return none

def analysis (grammar : Grammar) : Parse StatementKind := do
  keyword "TABLE"
  let _ ← path
  let _ ← many (analysisPart? grammar)
  return .other

inductive Explained where
  | explanation
  | other (statement : Statement)

/-- Takes an explanation after its first word, with `statement` for what is explained. -/
def explanation (statement : Parse Explained) : Parse StatementKind := do
  let _ ← keyword? "ANALYZE"
  let _ ← keyword? "VERBOSE"
  if ← keyword? "FORMAT" then do
    let _ ← oneOf ["TEXT", "GRAPHVIZ", "JSON"]
  match ← attempt statement with
  | some .explanation => failure
  | some (.other _) => return .other
  | none => do
    let _ ← path
    return .other

/-- Takes a statement that changes no rows, whose first word is known. -/
def command (grammar : Grammar) (word : String) : Parse StatementKind := do
  match word with
  | "CREATE" => definition grammar
  | "ALTER" => alteration grammar
  | "TRUNCATE" => emptying grammar
  | "PRAGMA" => setting
  | "BEGIN" => do
    let _ ← oneOf? ["DEFERRED", "IMMEDIATE", "EXCLUSIVE"]
    let _ ← oneOf? ["TRANSACTION", "WORK"]
    transactionModes
    return .other
  | "START" => do
    keyword "TRANSACTION"
    transactionModes
    return .other
  | "END" => do
    chain
    return .other
  | "COMMIT" => do
    chain
    return .other
  | "ROLLBACK" => do
    chain
    if ← keyword? "TO" then do
      let _ ← keyword? "SAVEPOINT"
      let _ ← name
    return .other
  | "SAVEPOINT" => do
    let _ ← name
    return .other
  | "RELEASE" => do
    let _ ← keyword? "SAVEPOINT"
    let _ ← name
    return .other
  | "ATTACH" => do
    let _ ← keyword? "DATABASE"
    let _ ← grammar.expression
    keyword "AS"
    let _ ← name
    return .other
  | "ANALYZE" => analysis grammar
  | "SET" => assignedVariable grammar
  | "SHOW" => do
    modify (·.dropWhile fun lexeme => lexeme.token != .symbol "=")
    return .other
  | "USE" => do
    let _ ← name
    return .other
  | "KILL" => do
    let _ ← oneOf? ["CONNECTION", "QUERY", "MUTATION"]
    let _ ← wholeNumber
    return .other
  | "CALL" => do
    let function ← path
    let _ ← call grammar function 0
    return .other
  | "CLOSE" => do
    let _ ← name
    return .other
  | "DISCARD" => do
    let _ ← oneOf ["ALL", "PLANS", "SEQUENCES", "TEMP", "TEMPORARY"]
    return .other
  | "ASSERT" => do
    let _ ← grammar.expression
    let _ ← after? "AS" grammar.expression
    return .other
  | "DEALLOCATE" => do
    let _ ← keyword? "PREPARE"
    let _ ← name
    return .other
  | "EXECUTE" => do
    let _ ← path
    if ← symbolAt 0 "(" then do
      let _ ← bracketed grammar.expressions
    return .other
  | "UNCACHE" => do
    keyword "TABLE"
    let _ ← keywords? ["IF", "EXISTS"]
    let _ ← path
    return .other
  | _ => failure

def explainingWords : List String := ["EXPLAIN", "DESCRIBE", "DESC"]

/-- Takes a statement nested at most `depth` deep. -/
def statementFrom (dialect : Dialect) : Nat → Parse Explained
  | 0 => failure
  | depth + 1 => do
    let grammar := Grammar.ofDepth dialect depth
    let word ← keywordAt 0
    let inBrackets := dialect.bracketedQueries && (← symbolAt 0 "(")
    if ["SELECT", "WITH", "VALUES"].contains word || inBrackets then
      return .other (.query (← grammar.query))
    else if word == "REPLACE" then return .other (.insert (← insertion grammar))
    else if word == "" then failure
    else do
      let _ ← take
      if explainingWords.contains word then do
        let _ ← explanation (statementFrom dialect depth)
        return .explanation
      else if word == "PREPARE" then do
        let _ ← name
        if ← symbol? "(" then do
          let _ ← commaList typeName
          symbol ")"
        keyword "AS"
        let _ ← statementFrom dialect depth
        return .other (.command .other)
      else if word == "INSERT" then return .other (.insert (← insertion grammar))
      else if word == "UPDATE" then return .other (.update (← change grammar))
      else if word == "DELETE" then return .other (← deletion grammar)
      else if word == "DROP" then return .other (← removal)
      else return .other (.command (← command grammar word))

def statement (dialect : Dialect) : Parse Statement := do
  match ← statementFrom dialect Grammar.greatestDepth with
  | .explanation => return .command .other
  | .other inner => return inner

def semicolons : Parse Bool := do
  let before ← get
  modify (·.dropWhile fun lexeme => lexeme.token == .symbol ";")
  return (← get).length < before.length

/-- Takes statements with semicolons between them; no more than `fuel` of them are left. A word
`END` right after a statement may end the text. -/
def statementsFrom (dialect : Dialect) (isFirst : Bool) : Nat → Parse (List Statement)
  | 0 => failure
  | fuel + 1 => do
    let separated ← semicolons
    if (← get).isEmpty then return []
    else if isFirst || separated then do
      let head ← statement dialect
      return head :: (← statementsFrom dialect false fuel)
    else if dialect.endCloses && (← keywordAt 0) == "END" then return []
    else failure

def statements (dialect : Dialect) : Parse (List Statement) := do
  statementsFrom dialect true ((← get).length + 1)

end GridReport.Sql.Parse

namespace GridReport.Sql

/-- The statements of a text. If there are none by the grammar, the answer is the token that could
not be taken, or nothing if the text ends too early. -/
def parse (dialect : Dialect) (text : String) : Except (Option Lexeme) (List Statement) :=
  match Lexer.lex text with
  | none => .error none
  | some lexemes =>
    match Parse.statements dialect lexemes with
    | .ok (all, _) => .ok all
    | .error left => .error left.head?

end GridReport.Sql
