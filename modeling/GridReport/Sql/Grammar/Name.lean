import GridReport.Sql.Grammar.Basic

/-!
Names, aliases, text literals and types.
-/

namespace GridReport.Sql.Parse

/-- Takes a name. A text in single quotes is one, too. -/
def name : Parse Name := takeAs fun
  | .word word => some word
  | .text value => some ⟨value, some '\x27'⟩
  | _ => none

def pathFrom : Nat → Parse (List Name)
  | 0 => failure
  | fuel + 1 => do
    let head ← name
    if ← symbol? "." then return head :: (← pathFrom fuel) else return [head]

def path : Parse (List Name) := do pathFrom ((← get).length + 1)

def nameList : Parse (List Name) := bracketed (commaList name)

def nameList? : Parse (List Name) := do
  if ← symbolAt 0 "(" then nameList else return []

/-- Takes an alias if there is one. Without `AS` it is none of the reserved words. -/
def label? (reserved : List String) : Parse (Option Name) := do
  if ← keyword? "AS" then some <$> name
  else
    match ← peek? with
    | some (.word word) =>
      if word.quote.isNone && reserved.contains (Text.upper word.value) then return none
      else some <$> name
    | some (.text _) => some <$> name
    | _ => return none

/-- Takes the alias of a source, and the names of its columns if they follow. -/
def sourceAlias? : Parse (Option Name × List Name) := do
  match ← label? reservedForSources with
  | none => return (none, [])
  | some word => return (some word, ← nameList?)

/-- Takes a text; a word that is no keyword is one, too. -/
def textLiteral : Parse String := takeAs fun
  | .text value => some value
  | .word word =>
    if word.quote.isNone && Sql.keywords.contains (Text.upper word.value) then none
    else some word.value
  | _ => none

def wholeNumber : Parse String := takeAs fun
  | .number digits _ => if digits.toList.all Char.isDigit then some digits else none
  | _ => none

/-- Takes a number in brackets if there is a bracket. -/
def precision? : Parse Unit := do
  if ← symbolAt 0 "(" then do
    let _ ← bracketed wholeNumber

/-- Takes a number, and perhaps a second one, in brackets if there is a bracket. -/
def scale? : Parse Unit := do
  if ← symbol? "(" then do
    let _ ← wholeNumber
    if ← symbol? "," then do
      let _ ← wholeNumber
    symbol ")"

/-- Takes a length in brackets if there is a bracket. -/
def textLength? : Parse Unit := do
  if ← symbol? "(" then do
    unless ← keyword? "MAX" do
      let _ ← wholeNumber
      let _ ← oneOf? ["CHARACTERS", "OCTETS"]
    symbol ")"

def timeZone? : Parse Unit := do
  if ← keyword? "WITH" then keywords ["TIME", "ZONE"]
  else if ← keyword? "WITHOUT" then keywords ["TIME", "ZONE"]

def textList : Parse Unit := do
  let _ ← bracketed (commaList textLiteral)

def typeArgument? : Parse (Option Unit) := do
  match ← peek? with
  | some (.word _) => some <$> (do let _ ← take)
  | some (.number _ _) => some <$> (do let _ ← take)
  | some (.text _) => some <$> (do let _ ← take)
  | some (.symbol ",") => some <$> (do let _ ← take)
  | _ => return none

def plainTypes : List String :=
  ["BOOLEAN", "BOOL", "REAL", "FLOAT4", "FLOAT8", "FLOAT32", "FLOAT64", "INT16", "INT32", "INT64",
    "INT128", "INT256", "UUID", "DATE", "DATE32", "JSON", "JSONB", "REGCLASS", "TEXT", "BYTEA",
    "INTERVAL"]

def integerTypes : List String :=
  ["TINYINT", "INT2", "SMALLINT", "MEDIUMINT", "INT", "INT4", "INT8", "INTEGER", "BIGINT"]

def preciseTypes : List String :=
  ["FLOAT", "CLOB", "BINARY", "VARBINARY", "BLOB", "BYTES", "DATETIME", "STRING"]

def scaledTypes : List String := ["NUMERIC", "DECIMAL", "DEC", "BIGNUMERIC", "BIGDECIMAL"]

/-- Takes a type. The second part of the answer says that it is a known one. -/
def typeName : Parse (TypeName × Bool) := do
  let word ← keywordAt 0
  let before ← get
  let known : Parse Bool := do
    if plainTypes.contains word then do
      let _ ← take
      return true
    else if integerTypes.contains word then do
      let _ ← take
      precision?
      let _ ← keyword? "UNSIGNED"
      return true
    else if preciseTypes.contains word then do
      let _ ← take
      precision?
      return true
    else if scaledTypes.contains word then do
      let _ ← take
      scale?
      return true
    else if word == "DOUBLE" then do
      let _ ← take
      let _ ← keyword? "PRECISION"
      return true
    else if word == "VARCHAR" || word == "NVARCHAR" then do
      let _ ← take
      textLength?
      return true
    else if word == "CHARACTER" || word == "CHAR" then do
      let _ ← take
      if ← keyword? "VARYING" then textLength?
      else if ← keywords? ["LARGE", "OBJECT"] then precision?
      else textLength?
      return true
    else if word == "TIMESTAMP" || word == "TIME" then do
      let _ ← take
      precision?
      timeZone?
      return true
    else if word == "TIMESTAMPTZ" || word == "TIMETZ" then do
      let _ ← take
      precision?
      return true
    else if word == "ENUM" || word == "SET" then do
      let _ ← take
      textList
      return true
    else do
      let _ ← path
      if ← symbol? "(" then do
        let _ ← many typeArgument?
        symbol ")"
      return false
  let isKnown ← known
  let words := (before.take (before.length - (← get).length)).map Lexeme.source
  return (⟨words⟩, isKnown)

end GridReport.Sql.Parse
