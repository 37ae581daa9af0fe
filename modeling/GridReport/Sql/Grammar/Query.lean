import GridReport.Sql.Grammar.Expression

/-!
Queries: common tables, selections, sources, set operations, order and limits.

Expressions and queries may be nested in each other fifty deep. Everything else is bounded by the
number of tokens to come.
-/

namespace GridReport.Sql.Parse

def item (grammar : Grammar) : Parse Item := do
  let before ← get
  match ← wildcardOr grammar with
  | .wildcard [] => return .all
  | .wildcard path => return .allOf path
  | expression => do
    let written := textBetween before (← get)
    match expression with
    | .column [⟨letters, none⟩] _ => if letters.map Char.toLower == "from" then failure
    | _ => pure ()
    return .value expression (← label? reservedForItems) written

def distinctness (grammar : Grammar) : Parse (Bool × List Expr) := do
  let all ← keyword? "ALL"
  if ← keyword? "DISTINCT" then do
    if all then failure
    if ← keyword? "ON" then
      bracketed do
        if ← symbolAt 0 ")" then return (true, []) else return (true, ← grammar.expressions)
    else return (true, [])
  else return (false, [])

/-- Takes the number of rows to select at the top. -/
def top (grammar : Grammar) : Parse (List Expr) := do
  let count ← if ← symbolAt 0 "(" then do pure [← bracketed grammar.expression]
    else do
      let _ ← wholeNumber
      pure []
  let _ ← keyword? "PERCENT"
  let _ ← keywords? ["WITH", "TIES"]
  return count

def joinConstraint (grammar : Grammar) (natural : Bool) : Parse (Option Expr × List Name) := do
  if natural then return (none, [])
  else if ← keyword? "ON" then return (some (← grammar.expression), [])
  else if ← keyword? "USING" then return (none, ← nameList)
  else return (none, [])

/-- The kind of a join, if one comes, and whether it has a constraint. -/
def joinKind? : Parse (Option (JoinKind × Bool)) := do
  if ← keyword? "CROSS" then do
    let word ← oneOf ["JOIN", "APPLY"]
    return some (if word == "JOIN" then .cross else .foreign, false)
  else if ← keyword? "OUTER" then do
    keyword "APPLY"
    return some (.foreign, false)
  else do
    let natural ← keyword? "NATURAL"
    let plain (kind : JoinKind) : JoinKind := if natural then .natural else kind
    match ← oneOf? ["INNER", "JOIN", "LEFT", "RIGHT", "FULL"] with
    | some "JOIN" => return some (plain .inner, !natural)
    | some "INNER" => do
      keyword "JOIN"
      return some (plain .inner, !natural)
    | some "FULL" => do
      let _ ← keyword? "OUTER"
      keyword "JOIN"
      return some (.full, !natural)
    | some side => do
      let kind := if side == "LEFT" then JoinKind.left else .right
      match ← oneOf ["OUTER", "SEMI", "ANTI", "JOIN"] with
      | "JOIN" => return some (kind, !natural)
      | "OUTER" => do
        keyword "JOIN"
        return some (kind, !natural)
      | _ => do
        keyword "JOIN"
        return some (.foreign, !natural)
    | none => if natural then failure else return none

def isGrouped : Source → Bool
  | .grouped _ _ => true
  | _ => false

def sourceArguments (grammar : Grammar) : Parse (List Expr) := bracketed do
  if ← symbolAt 0 ")" then return [] else commaList (argument grammar)

def namedSource (grammar : Grammar) : Parse Source := do
  let place ← path
  let given ← if ← symbolAt 0 "(" then sourceArguments grammar else pure []
  let _ ← keywords? ["WITH", "ORDINALITY"]
  let (label, columns) ← sourceAlias?
  let hints ← if (← keywordAt 0) == "WITH" && (← symbolAt 1 "(") then do
      keyword "WITH"
      bracketed grammar.expressions
    else pure []
  return .table place given label columns hints

/-- Takes a query in brackets as a source, after the first bracket. -/
def derivedRest (grammar : Grammar) : Parse Source := do
  let inner ← grammar.query
  symbol ")"
  let (label, columns) ← sourceAlias?
  return .derived inner label columns

/-- Takes the joins that follow a source; no more than `fuel` of them are left. -/
def joinsFrom (grammar : Grammar) (factor : Parse Source) (left : Source) :
    Nat → Parse Source
  | 0 => return left
  | fuel + 1 => do
    let _ ← keyword? "GLOBAL"
    match ← joinKind? with
    | none => return left
    | some (kind, constrained) => do
      let right ← factor
      let (condition, shared) ← if constrained then joinConstraint grammar false
        else pure (none, [])
      joinsFrom grammar factor (.join kind left right condition shared) fuel

def joinedWith (grammar : Grammar) (factor : Parse Source) : Parse Source := do
  let left ← factor
  joinsFrom grammar factor left ((← get).length + 1)

def isJoin : Source → Bool
  | .join _ _ _ _ _ => true
  | _ => false

/-- Takes a source without joins. A bracket opens a query or a join; no more than `fuel` of these
brackets are left. -/
def factorFrom (grammar : Grammar) : Nat → Parse Source
  | 0 => failure
  | fuel + 1 => do
    if ← keyword? "LATERAL" then
      if ← symbol? "(" then derivedRest grammar
      else do
        let _ ← path
        let given ← sourceArguments grammar
        let (label, _) ← sourceAlias?
        return .rows given label
    else if ← keyword? "TABLE" then do
      let inner ← bracketed grammar.expression
      let (label, _) ← sourceAlias?
      return .rows [inner] label
    else if ← symbol? "(" then
      match ← attempt (derivedRest grammar) with
      | some source => return source
      | none => do
        let inner ← joinedWith grammar (factorFrom grammar fuel)
        unless isJoin inner || isGrouped inner do failure
        symbol ")"
        let (label, _) ← sourceAlias?
        return .grouped inner label
    else namedSource grammar

def factor (grammar : Grammar) : Parse Source := do
  factorFrom grammar ((← get).length + 1)

def source (grammar : Grammar) : Parse Source := joinedWith grammar (factor grammar)

def lateralView? (grammar : Grammar) : Parse (Option Expr) := do
  if ← keywords? ["LATERAL", "VIEW"] then do
    let _ ← keyword? "OUTER"
    let inner ← grammar.expression
    let _ ← path
    let _ ← commaList (label? ["WHERE", "GROUP", "CLUSTER", "HAVING", "LATERAL"])
    return some inner
  else return none

def namedWindow (grammar : Grammar) : Parse (List Expr) := do
  let _ ← name
  keyword "AS"
  symbol "("
  windowRest grammar

/-- Takes the windows of a selection, and the condition on their rows, in either order. -/
def windows (grammar : Grammar) : Parse (List Expr) := do
  let names ← listAfter ["WINDOW"] (List.flatten <$> commaList (namedWindow grammar))
  let condition ← after? "QUALIFY" grammar.expression
  let later ← if names.isEmpty && condition.isSome then
      listAfter ["WINDOW"] (List.flatten <$> commaList (namedWindow grammar))
    else pure []
  return names ++ later ++ condition.toList

/-- Takes the target of rows that are to be stored. -/
def target? : Parse Unit := do
  if ← keyword? "INTO" then do
    let _ ← oneOf? ["TEMP", "TEMPORARY"]
    let _ ← keyword? "UNLOGGED"
    let _ ← keyword? "TABLE"
    let _ ← path

def selection (grammar : Grammar) : Parse Body := do
  let (isDistinct, on) ← distinctness grammar
  let count ← if ← keyword? "TOP" then top grammar else pure []
  let items ← commaList (item grammar)
  target?
  let sources ← listAfter ["FROM"] (commaList (source grammar))
  let views ← many (lateralView? grammar)
  let condition ← after? "WHERE" grammar.expression
  let grouping ← listAfter ["GROUP", "BY"] (do
    if ← keyword? "ALL" then return [] else grammar.expressions)
  let cluster ← listAfter ["CLUSTER", "BY"] grammar.expressions
  let distribution ← listAfter ["DISTRIBUTE", "BY"] grammar.expressions
  let sorting ← listAfter ["SORT", "BY"] grammar.expressions
  let having ← after? "HAVING" grammar.expression
  let shown ← windows grammar
  return .select isDistinct (on ++ count) items sources views condition grouping
    (cluster ++ distribution ++ sorting) having shown

def rows (grammar : Grammar) : Parse Body := do
  let row : Parse Expr := do
    let _ ← keyword? "ROW"
    return .tuple (← bracketed grammar.expressions)
  return .values (← commaList row)

/-- Takes the name of a table after the word for it. Three tokens are taken, whatever they are, if
the second is no point. -/
def tableRest : Parse Body := do
  match ← get with
  | ⟨.word schema, _, _, _⟩ :: ⟨.symbol ".", _, _, _⟩ :: ⟨.word table, _, _, _⟩ :: rest => do
    set rest
    return .table [schema, table]
  | _ :: ⟨.symbol ".", _, _, _⟩ :: _ => failure
  | ⟨.word table, _, _, _⟩ :: rest => do
    set (rest.drop 2)
    return .table [table]
  | _ => failure

def setOperator (operator : SetOperator) : Parse Bool := do
  match operator with
  | .union =>
    if ← keywords? ["DISTINCT", "BY", "NAME"] then return false
    else if ← keywords? ["BY", "NAME"] then return false
    else if ← keyword? "ALL" then do
      let _ ← keywords? ["BY", "NAME"]
      return true
    else do
      let _ ← keyword? "DISTINCT"
      return false
  | _ =>
    if ← keyword? "ALL" then return true
    else do
      let _ ← keyword? "DISTINCT"
      return false

/-- The set operator that a word is, and how tightly it binds. -/
def setOperator? (dialect : Dialect) : String → Option (SetOperator × Nat)
  | "UNION" => some (.union, 1)
  | "EXCEPT" => some (.except, 1)
  | "INTERSECT" => some (.intersect, dialect.intersection)
  | _ => none

def bodyPart (grammar : Grammar) : Parse Body := do
  if ← keyword? "SELECT" then selection grammar
  else if ← bracket? then do
    let inner ← grammar.query
    symbol ")"
    return .nested inner
  else if ← keyword? "VALUES" then rows grammar
  else do
    keyword "TABLE"
    tableRest
where
  /-- Takes the bracket in front of a query, where one may stand there. -/
  bracket? : Parse Bool := if grammar.dialect.bracketedQueries then symbol? "(" else return false

/-- Takes set operators and their right sides, each right side with `part`; no more than `fuel` of
them are left. -/
def combinedFrom (dialect : Dialect) (part : Nat → Parse Body) (rank : Nat) (left : Body) :
    Nat → Parse Body
  | 0 => return left
  | fuel + 1 => do
    match setOperator? dialect (← keywordAt 0) with
    | none => return left
    | some (operator, next) =>
      if next ≤ rank then return left
      else do
        let _ ← take
        let all ← setOperator operator
        let right ← part next
        combinedFrom dialect part rank (.combine operator all left right) fuel

/-- Takes a body whose set operators bind more tightly than a rank. `depth` counts the dialect that
may still be nested. -/
def bodyFrom (grammar : Grammar) : Nat → Nat → Parse Body
  | 0, _ => bodyPart grammar
  | depth + 1, rank => do
    let left ← bodyPart grammar
    combinedFrom grammar.dialect (bodyFrom grammar depth) rank left ((← get).length + 1)

def body (grammar : Grammar) : Parse Body := bodyFrom grammar 3 0

def commonTable (grammar : Grammar) : Parse CommonTable := do
  let word ← name
  let columns ← if ← keyword? "AS" then pure []
    else do
      let columns ← nameList?
      keyword "AS"
      pure columns
  let inner ← bracketed grammar.query
  if ← keyword? "FROM" then do
    let _ ← name
  return .mk word columns inner

def fetchRest : Parse (Option Expr) := do
  let _ ← oneOf ["FIRST", "NEXT"]
  let count ← if (← oneOf? ["ROW", "ROWS"]).isSome then pure none
    else do
      let count ← value
      let _ ← keyword? "PERCENT"
      let _ ← oneOf ["ROW", "ROWS"]
      pure (some count)
  if ← keyword? "ONLY" then return count
  else do
    keywords ["WITH", "TIES"]
    return count

def lock? : Parse (Option Unit) := do
  if ← keyword? "FOR" then do
    if ← keyword? "BROWSE" then return some ()
    let _ ← oneOf ["UPDATE", "SHARE"]
    if ← keyword? "OF" then do
      let _ ← path
    if ← keyword? "NOWAIT" then return some ()
    if ← keyword? "SKIP" then keyword "LOCKED"
    return some ()
  else return none

/-- The limit and the offset of a query. -/
structure Part where
  limit : Option Expr
  offset : Option Expr

/-- Takes a limit and an offset that are still missing. -/
def part (grammar : Grammar) (given : Part) : Parse Part := do
  let limit ← if ← missing? given.limit "LIMIT" then do
      if ← keyword? "ALL" then pure none else some <$> grammar.expression
    else pure given.limit
  let skips ← missing? given.offset "OFFSET"
  let offset ← if skips && (grammar.dialect.looseOffset || limit.isSome) then do
      let count ← grammar.expression
      let _ ← oneOf? ["ROW", "ROWS"]
      pure (some count)
    else pure given.offset
  return ⟨limit, offset⟩
where
  /-- Takes the word of a clause that is still missing. -/
  missing? (clause : Option Expr) (word : String) : Parse Bool :=
    if clause.isNone then keyword? word else return false

/-- Takes an assignment: anything up to an equals sign, and a value. -/
def assignment (grammar : Grammar) : Parse (List Name × Expr) := do
  let place := (← get).takeWhile fun lexeme => lexeme.token != .symbol "="
  modify (·.drop place.length)
  symbol "="
  let given ← grammar.expression
  let names := place.filterMap fun lexeme =>
    match lexeme.token with
    | .word word => some word
    | _ => none
  return (names, given)

/-- Takes the items that a change gives back. -/
def returned? (grammar : Grammar) : Parse (List Item) :=
  listAfter ["RETURNING"] (commaList (item grammar))

/-- Takes what to do where a row is there already. -/
def conflict? (grammar : Grammar) : Parse (List Expr) := do
  if ← keyword? "ON" then
    if ← keyword? "CONFLICT" then do
      if ← keywords? ["ON", "CONSTRAINT"] then do
        let _ ← path
      else do
        let _ ← nameList?
      keyword "DO"
      if ← keyword? "NOTHING" then return []
      else do
        keywords ["UPDATE", "SET"]
        let assigned ← commaList (assignment grammar)
        let condition ← after? "WHERE" grammar.expression
        return assigned.map (·.2) ++ condition.toList
    else do
      keywords ["DUPLICATE", "KEY", "UPDATE"]
      return (← commaList (assignment grammar)).map (·.2)
  else return []

def insertion (grammar : Grammar) : Parse Body := do
  if ← keyword? "OR" then do
    let _ ← oneOf ["REPLACE", "ROLLBACK", "ABORT", "FAIL", "IGNORE"]
  else do
    let _ ← keyword? "REPLACE"
  let _ ← keyword? "OVERWRITE"
  let _ ← keyword? "INTO"
  let _ ← keyword? "LOCAL"
  if ← keyword? "DIRECTORY" then do
    let _ ← textLiteral
    return .insert [] [] (some (← grammar.query)) [] []
  else do
    let _ ← keyword? "TABLE"
    let table ← path
    if ← keywords? ["DEFAULT", "VALUES"] then do
      let conflict ← conflict? grammar
      let returned ← returned? grammar
      return .insert table [] none conflict returned
    else do
      let startsQuery := (← symbolAt 0 "(") && (← keywordAt 1) == "SELECT"
      let columns ← if startsQuery then pure [] else nameList?
      let partition ← if startsQuery then pure []
        else listAfter ["PARTITION"] (bracketed grammar.expressions)
      let given ← grammar.query
      let conflict ← conflict? grammar
      let returned ← returned? grammar
      return .insert table columns (some given) (partition ++ conflict) returned

/-- Takes an update after its first word. -/
def change (grammar : Grammar) : Parse Body := do
  let table ← source grammar
  keyword "SET"
  let assigned ← commaList (assignment grammar)
  let sources ← listAfter ["FROM"] (do return [← source grammar])
  let condition ← after? "WHERE" grammar.expression
  let returned ← returned? grammar
  return .update table (assigned.map (·.1)) (assigned.map (·.2)) sources condition returned

/-- Takes a query. What changes a table may be the body of one, and then nothing follows it. -/
def queryWith (grammar : Grammar) : Parse Query := do
  let tables ← if ← keyword? "WITH" then do
      let _ ← keyword? "RECURSIVE"
      commaList (commonTable grammar)
    else pure []
  if ← keyword? "INSERT" then return .mk tables (← insertion grammar) [] none none none
  else if ← keyword? "UPDATE" then return .mk tables (← change grammar) [] none none none
  else do
    let whole ← body grammar
    let order ← listAfter ["ORDER", "BY"] (commaList (orderTerm grammar))
    let once ← part grammar ⟨none, none⟩
    let twice ← part grammar once
    let fetched ← if ← keyword? "FETCH" then fetchRest else pure none
    let _ ← many lock?
    return .mk tables whole order twice.limit twice.offset fetched

end GridReport.Sql.Parse

namespace GridReport.Sql.Grammar

/-- The grammar in which expressions and queries may be nested to a depth. -/
def ofDepth (dialect : Dialect) : Nat → Grammar
  | 0 => ⟨dialect, fun _ => failure, failure⟩
  | depth + 1 =>
    let inner := ofDepth dialect depth
    ⟨dialect, Parse.expression inner, Parse.queryWith inner⟩

def greatestDepth : Nat := 50

end GridReport.Sql.Grammar
