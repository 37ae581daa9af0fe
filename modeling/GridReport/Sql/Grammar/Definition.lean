import GridReport.Sql.Grammar.Query

/-!
Statements that change the schema. Only their kind is kept, but for tables that are taken away.
-/

namespace GridReport.Sql.Parse

/-- Takes what happens to rows that refer to a row that changes. -/
def referenceAction : Parse Unit := do
  if ← keywords? ["SET", "NULL"] then return ()
  else if ← keywords? ["SET", "DEFAULT"] then return ()
  else if ← keywords? ["NO", "ACTION"] then return ()
  else do
    let _ ← oneOf ["RESTRICT", "CASCADE"]

/-- Takes one remark about when a constraint holds. -/
def characteristic? : Parse (Option Unit) := do
  if ← keywords? ["NOT", "DEFERRABLE"] then return some ()
  else if ← keyword? "DEFERRABLE" then return some ()
  else if ← keywords? ["INITIALLY", "DEFERRED"] then return some ()
  else if ← keywords? ["INITIALLY", "IMMEDIATE"] then return some ()
  else if ← keywords? ["NOT", "ENFORCED"] then return some ()
  else if ← keyword? "ENFORCED" then return some ()
  else return none

/-- Takes the remarks about when a constraint holds. -/
def characteristics : Parse Unit := do
  let _ ← many characteristic?

/-- Takes one action of a reference. -/
def onChange? : Parse (Option Unit) := do
  if ← keywords? ["ON", "DELETE"] then some <$> referenceAction
  else if ← keywords? ["ON", "UPDATE"] then some <$> referenceAction
  else return none

def reference : Parse Unit := do
  let _ ← path
  let _ ← nameList?
  let _ ← many onChange?
  characteristics

/-- Takes a column worked out from others. -/
def generated (grammar : Grammar) : Parse Unit := do
  let _ ← bracketed grammar.expression
  let _ ← oneOf? ["STORED", "VIRTUAL"]

def columnOption? (grammar : Grammar) : Parse (Option Unit) := do
  if ← keyword? "CONSTRAINT" then do
    let _ ← name
  let finish (step : Parse Unit) : Parse (Option Unit) := some <$> step
  if ← keywords? ["CHARACTER", "SET"] then finish (do let _ ← path)
  else if ← keywords? ["NOT", "NULL"] then return some ()
  else if ← keyword? "COMMENT" then finish (do let _ ← textLiteral)
  else if ← keyword? "NULL" then return some ()
  else if ← keyword? "DEFAULT" then finish (do let _ ← grammar.expression)
  else if ← keywords? ["PRIMARY", "KEY"] then finish characteristics
  else if ← keyword? "UNIQUE" then finish characteristics
  else if ← keyword? "REFERENCES" then finish reference
  else if ← keyword? "CHECK" then finish (do let _ ← bracketed grammar.expression)
  else if ← keyword? "AUTOINCREMENT" then return some ()
  else if ← keywords? ["GENERATED", "ALWAYS", "AS"] then finish (generated grammar)
  else if ← keyword? "AS" then finish (generated grammar)
  else if ← keywords? ["ON", "CONFLICT"] then
    finish (do let _ ← oneOf ["ROLLBACK", "ABORT", "FAIL", "IGNORE", "REPLACE"])
  else return none

def typelessWords : List String :=
  ["CONSTRAINT", "PRIMARY", "NOT", "UNIQUE", "CHECK", "DEFAULT", "COLLATE", "REFERENCES",
    "GENERATED", "AS"]

def columnDefinition (grammar : Grammar) : Parse Unit := do
  let _ ← name
  match ← peek? with
  | some (.word word) =>
    unless word.quote.isNone && typelessWords.contains (Text.upper word.value) do
      let _ ← typeName
  | _ => pure ()
  if ← keyword? "COLLATE" then do
    let _ ← path
  let _ ← many (columnOption? grammar)

def tableConstraint? (grammar : Grammar) : Parse (Option Unit) := do
  let isNamed ← keyword? "CONSTRAINT"
  if isNamed then do
    let _ ← name
  let keyed : Parse (Option Unit) := do
    unless ← symbolAt 0 "(" do
      let _ ← name
    let _ ← nameList
    characteristics
    return some ()
  if ← keyword? "UNIQUE" then do
    let _ ← oneOf? ["INDEX", "KEY"]
    keyed
  else if ← keyword? "PRIMARY" then do
    keyword "KEY"
    keyed
  else if ← keyword? "FOREIGN" then do
    keyword "KEY"
    let _ ← nameList
    keyword "REFERENCES"
    reference
    return some ()
  else if ← keyword? "CHECK" then do
    let _ ← bracketed grammar.expression
    let _ ← oneOf? ["ENFORCED"]
    return some ()
  else if isNamed then failure
  else return none

/-- Takes columns and constraints up to the closing bracket; no more than `fuel` of them are
left. -/
def columnsFrom (grammar : Grammar) : Nat → Parse Unit
  | 0 => failure
  | fuel + 1 => do
    match ← tableConstraint? grammar with
    | some () => pure ()
    | none =>
      match ← peek? with
      | some (.word _) => columnDefinition grammar
      | _ => failure
    if ← symbol? "," then columnsFrom grammar fuel else symbol ")"

/-- Takes the columns of a table if there is a bracket. -/
def columns? (grammar : Grammar) : Parse Unit := do
  if ← symbol? "(" then
    unless ← symbol? ")" do columnsFrom grammar ((← get).length + 1)

def options? (grammar : Grammar) : Parse Unit := do
  if (← keywordAt 0) == "WITH" && (← symbolAt 1 "(") then do
    keyword "WITH"
    let _ ← bracketed grammar.expressions

def tableDefinition (grammar : Grammar) : Parse Unit := do
  let _ ← keywords? ["IF", "NOT", "EXISTS"]
  let _ ← path
  if (← oneOf? ["LIKE", "ILIKE"]).isSome then do
    let _ ← path
  if ← keyword? "CLONE" then do
    let _ ← path
  columns? grammar
  let _ ← keywords? ["WITHOUT", "ROWID"]
  options? grammar
  let _ ← keyword? "STRICT"
  if ← keyword? "AS" then do
    let _ ← grammar.query

def viewDefinition (grammar : Grammar) : Parse Unit := do
  let _ ← keywords? ["IF", "NOT", "EXISTS"]
  let _ ← path
  let _ ← nameList?
  options? grammar
  keyword "AS"
  let _ ← grammar.query
  let _ ← keywords? ["WITH", "NO", "SCHEMA", "BINDING"]

def indexDefinition (grammar : Grammar) : Parse Unit := do
  let _ ← keyword? "CONCURRENTLY"
  if ← keywords? ["IF", "NOT", "EXISTS"] then do
    let _ ← path
    keyword "ON"
  else
    unless ← keyword? "ON" do
      let _ ← path
      keyword "ON"
  let _ ← path
  if ← keyword? "USING" then do
    let _ ← name
  let _ ← bracketed (commaList (orderTerm grammar))
  if ← keyword? "INCLUDE" then do
    let _ ← nameList
  if ← keyword? "NULLS" then do
    let _ ← keyword? "NOT"
    keyword "DISTINCT"
  options? grammar
  let _ ← after? "WHERE" grammar.expression

def schemaDefinition : Parse Unit := do
  let _ ← keywords? ["IF", "NOT", "EXISTS"]
  unless ← keyword? "AUTHORIZATION" do
    let _ ← path
    let _ ← keyword? "AUTHORIZATION"
    if (← keywordAt 0) == "" then return ()
  let _ ← attempt name

def databaseDefinition : Parse Unit := do
  let _ ← keywords? ["IF", "NOT", "EXISTS"]
  let _ ← path
  let place : Parse (Option Unit) := do
    match ← oneOf? ["LOCATION", "MANAGEDLOCATION"] with
    | some _ => some <$> (do let _ ← textLiteral)
    | none => return none
  let _ ← many place

def moduleDefinition : Parse Unit := do
  keyword "TABLE"
  let _ ← keywords? ["IF", "NOT", "EXISTS"]
  let _ ← path
  keyword "USING"
  let _ ← name
  let _ ← nameList?

def definition (grammar : Grammar) : Parse StatementKind := do
  let replaced ← keywords? ["OR", "REPLACE"]
  let _ ← keywords? ["OR", "ALTER"]
  let _ ← oneOf? ["LOCAL", "GLOBAL"]
  let _ ← keyword? "TRANSIENT"
  let _ ← oneOf? ["TEMP", "TEMPORARY"]
  if ← keyword? "TABLE" then do
    tableDefinition grammar
    return .definition
  else if ← keywords? ["MATERIALIZED", "VIEW"] then do
    viewDefinition grammar
    return .definition
  else if ← keyword? "VIEW" then do
    viewDefinition grammar
    return .definition
  else if replaced then failure
  else if ← keyword? "INDEX" then do
    indexDefinition grammar
    return .definition
  else if ← keywords? ["UNIQUE", "INDEX"] then do
    indexDefinition grammar
    return .definition
  else if ← keyword? "SCHEMA" then do
    schemaDefinition
    return .definition
  else if ← keyword? "DATABASE" then do
    databaseDefinition
    return .definition
  else if ← keyword? "VIRTUAL" then do
    moduleDefinition
    return .other
  else if ← keyword? "EXTENSION" then do
    let _ ← keywords? ["IF", "NOT", "EXISTS"]
    let _ ← name
    return .other
  else if ← keyword? "SEQUENCE" then do
    let _ ← keywords? ["IF", "NOT", "EXISTS"]
    let _ ← path
    return .other
  else if ← keyword? "ROLE" then do
    let _ ← keywords? ["IF", "NOT", "EXISTS"]
    let _ ← commaList path
    return .other
  else failure

def droppedObjects : List String :=
  ["TABLE", "VIEW", "INDEX", "ROLE", "SCHEMA", "SEQUENCE", "STAGE"]

def removal : Parse Statement := do
  if ← keyword? "FUNCTION" then do
    let _ ← keywords? ["IF", "EXISTS"]
    let _ ← commaList path
    let _ ← oneOf? ["CASCADE", "RESTRICT"]
    return .command .other
  else do
    let object ← oneOf droppedObjects
    let optional ← keywords? ["IF", "EXISTS"]
    let named ← commaList path
    let cascade ← keyword? "CASCADE"
    let restricted ← keyword? "RESTRICT"
    let purged ← keyword? "PURGE"
    if cascade && restricted then failure
    if object == "ROLE" && (cascade || restricted || purged) then failure
    if object == "TABLE" then return .drop named optional
    else return .command .definition

def columnChange (grammar : Grammar) : Parse Unit := do
  if ← keywords? ["SET", "NOT", "NULL"] then return ()
  else if ← keywords? ["DROP", "NOT", "NULL"] then return ()
  else if ← keywords? ["SET", "DEFAULT"] then do
    let _ ← grammar.expression
  else if ← keywords? ["DROP", "DEFAULT"] then return ()
  else do
    let _ ← keywords? ["SET", "DATA"]
    keyword "TYPE"
    let _ ← typeName
    let _ ← after? "USING" grammar.expression

def tableChange (grammar : Grammar) : Parse Unit := do
  if ← keyword? "ADD" then
    match ← tableConstraint? grammar with
    | some () => return ()
    | none => do
      let _ ← keyword? "COLUMN"
      let _ ← keywords? ["IF", "NOT", "EXISTS"]
      columnDefinition grammar
  else if ← keyword? "RENAME" then
    if ← keyword? "CONSTRAINT" then do
      let _ ← name
      keyword "TO"
      let _ ← name
    else if ← keyword? "TO" then do
      let _ ← path
    else do
      let _ ← keyword? "COLUMN"
      let _ ← name
      keyword "TO"
      let _ ← name
  else if ← keyword? "DROP" then do
    unless ← keyword? "CONSTRAINT" do
      let _ ← keyword? "COLUMN"
    let _ ← keywords? ["IF", "EXISTS"]
    let _ ← name
    let _ ← oneOf? ["CASCADE", "RESTRICT"]
  else if ← keyword? "ALTER" then do
    let _ ← keyword? "COLUMN"
    let _ ← name
    columnChange grammar
  else do
    keywords ["SWAP", "WITH"]
    let _ ← path

def alteration (grammar : Grammar) : Parse StatementKind := do
  match ← oneOf ["VIEW", "TABLE", "INDEX"] with
  | "TABLE" => do
    let _ ← keywords? ["IF", "EXISTS"]
    let _ ← keyword? "ONLY"
    let _ ← path
    let _ ← commaList (tableChange grammar)
    return .definition
  | "INDEX" => do
    let _ ← path
    keywords ["RENAME", "TO"]
    let _ ← path
    return .other
  | _ => do
    let _ ← path
    let _ ← nameList?
    options? grammar
    keyword "AS"
    let _ ← grammar.query
    return .other

/-- Takes an emptying of a table after its first word. -/
def emptying (grammar : Grammar) : Parse StatementKind := do
  let _ ← keyword? "TABLE"
  let _ ← path
  let _ ← listAfter ["PARTITION"] (bracketed grammar.expressions)
  return .definition

end GridReport.Sql.Parse
