import GridReport.Sql.Keyword
import GridReport.Sql.Tree

/-!
Steps of the grammar.

A step takes tokens off the front of the text and gives a part of the tree, or it fails in front of
the token that it cannot take. Of two ways that both fail, the failure is that of the one that came
further.
-/

namespace GridReport.Sql

/-- A step of the grammar. A failure leaves the tokens that could not be taken. -/
def Parse (α : Type) : Type := List Lexeme → Except (List Lexeme) (α × List Lexeme)

namespace Parse

instance : Monad Parse where
  pure a := fun rest => .ok (a, rest)
  bind step next := fun rest =>
    match step rest with
    | .ok (a, after) => next a after
    | .error left => .error left

instance : MonadStateOf (List Lexeme) Parse where
  get := fun rest => .ok (rest, rest)
  set after := fun _ => .ok ((), after)
  modifyGet change := fun rest => .ok (change rest)

instance : Alternative Parse where
  failure := fun rest => .error rest
  orElse step other := fun rest =>
    match step rest with
    | .ok result => .ok result
    | .error left =>
      match other () rest with
      | .ok result => .ok result
      | .error later => .error (if later.length < left.length then later else left)

def peek? : Parse (Option Token) := return (← get).head?.map Lexeme.token

/-- The keyword at a position of the tokens to come, empty if there is none. -/
def keywordAt (index : Nat) : Parse String := do
  return ((← get)[index]?.map (·.token.keyword)).getD ""

/-- Takes a token. -/
def take : Parse Lexeme := do
  match ← get with
  | [] => failure
  | head :: tail => do
    set tail
    return head

def takeAs {α : Type} (meaning : Token → Option α) : Parse α := do
  match ← get with
  | [] => failure
  | head :: tail =>
    match meaning head.token with
    | none => failure
    | some a => do
      set tail
      return a

def takeIf (test : Token → Bool) : Parse Bool := do
  match ← get with
  | [] => return false
  | head :: tail =>
    if test head.token then do
      set tail
      return true
    else return false

def keyword? (word : String) : Parse Bool := takeIf (·.isKeyword word)

def keywords? (words : List String) : Parse Bool := do
  let comes := ((← get).take words.length).map (·.token.keyword)
  if comes == words then do
    modify (·.drop words.length)
    return true
  else return false

/-- Takes one of several keywords if one comes. -/
def oneOf? (words : List String) : Parse (Option String) := do
  match ← peek? with
  | none => return none
  | some token =>
    if words.contains token.keyword then do
      let _ ← take
      return some token.keyword
    else return none

def keyword (word : String) : Parse Unit := do
  unless ← keyword? word do failure

/-- Takes a row of keywords that must come. -/
def keywords (words : List String) : Parse Unit := do
  unless ← keywords? words do failure

/-- Takes one of several keywords, one of which must come. -/
def oneOf (words : List String) : Parse String := do
  match ← oneOf? words with
  | some word => return word
  | none => failure

def symbol? (spelling : String) : Parse Bool := takeIf (· == .symbol spelling)

def symbol (spelling : String) : Parse Unit := do
  unless ← symbol? spelling do failure

/-- The symbol is at a position of the tokens to come. -/
def symbolAt (index : Nat) (spelling : String) : Parse Bool := do
  return (← get)[index]?.map Lexeme.token == some (.symbol spelling)

def attempt {α : Type} (step : Parse α) : Parse (Option α) :=
  (some <$> step) <|> pure none

def bracketed {α : Type} (step : Parse α) : Parse α := do
  symbol "("
  let result ← step
  symbol ")"
  return result

/-- Takes items with commas between them; no more than `fuel` items are left. -/
def commaListFrom {α : Type} (item : Parse α) : Nat → Parse (List α)
  | 0 => failure
  | fuel + 1 => do
    let head ← item
    if ← symbol? "," then return head :: (← commaListFrom item fuel) else return [head]

def commaList {α : Type} (item : Parse α) : Parse (List α) := do
  commaListFrom item ((← get).length + 1)

/-- Takes items while they come; no more than `fuel` items are left. -/
def manyFrom {α : Type} (item : Parse (Option α)) : Nat → Parse (List α)
  | 0 => return []
  | fuel + 1 => do
    match ← item with
    | some head => return head :: (← manyFrom item fuel)
    | none => return []

/-- Takes items while they come. -/
def many {α : Type} (item : Parse (Option α)) : Parse (List α) := do
  manyFrom item ((← get).length + 1)

/-- Takes what follows a keyword if the keyword comes. -/
def after? {α : Type} (word : String) (step : Parse α) : Parse (Option α) := do
  if ← keyword? word then some <$> step else return none

/-- Takes the list that follows a row of keywords, nothing if they do not come. -/
def listAfter {α : Type} (words : List String) (step : Parse (List α)) : Parse (List α) := do
  if ← keywords? words then step else return []

def textBetween (before after : List Lexeme) : String :=
  match before.take (before.length - after.length) with
  | [] => ""
  | head :: tail => head.source ++ String.join (tail.map fun l => l.gap ++ l.source)

end Parse

end GridReport.Sql
