import GridReport.Sql.Lexer
import GridReport.Store.Operator
import GridReport.Store.Table

/-!
The columns of a table, read from the statement that made it.

The items between the outer brackets are columns and constraints. Of a column its name and its type
count, and whether it is the key; defaults, checks and references do not show in what is read later.
-/

namespace GridReport.Store.Schema

open Sql (Token)

def depthAfter (depth : Nat) : Token → Nat
  | .symbol "(" => depth + 1
  | .symbol ")" => depth - 1
  | _ => depth

/-- Cuts the tokens inside brackets at their own commas, up to the bracket that closes them. -/
def itemsFrom (depth : Nat) (current : List Token) : List Token → List (List Token)
  | [] => [current.reverse]
  | token :: rest =>
    match depth, token with
    | 0, .symbol ")" => [current.reverse]
    | 0, .symbol "," => current.reverse :: itemsFrom 0 [] rest
    | _, _ => itemsFrom (depthAfter depth token) (token :: current) rest

/-- The items between the outer brackets of a statement. -/
def items (sql : String) : List (List Token) :=
  match Sql.Lexer.lex sql with
  | none => []
  | some lexemes =>
    let tokens := lexemes.map Sql.Lexeme.token
    itemsFrom 0 [] ((tokens.dropWhile (· != .symbol "(")).drop 1)

def constraintWords : List String := ["CONSTRAINT", "PRIMARY", "UNIQUE", "CHECK", "FOREIGN"]

/-- The words that end the type of a column. -/
def optionWords : List String :=
  ["CONSTRAINT", "PRIMARY", "NOT", "NULL", "UNIQUE", "CHECK", "DEFAULT", "COLLATE", "REFERENCES",
    "GENERATED", "AS"]

/-- The words of the type at the front of what follows a column's name. -/
def typeWords (tokens : List Token) : List String :=
  (tokens.takeWhile fun token => !optionWords.contains token.keyword).filterMap fun token =>
    match token with
    | .word name => some name.value
    | _ => none

/-- The keyword stands among the tokens right before another one. -/
def hasPair (first second : String) : List Token → Bool
  | a :: b :: rest =>
    (a.isKeyword first && b.isKeyword second) || hasPair first second (b :: rest)
  | _ => false

/-- The columns that a constraint makes the key of a table. -/
def keyNames (item : List Token) : Option (List String) :=
  if hasPair "PRIMARY" "KEY" item then
    some (((item.dropWhile (· != .symbol "(")).filterMap fun token =>
      match token with
      | .word name => some (Database.fold name.value)
      | _ => none))
  else none

/-- An item that is a column: what follows its name. -/
structure Item where
  name : String
  rest : List Token

/-- Tells columns from constraints. -/
def Item.ofTokens? : List Token → Option Item
  | .word name :: rest =>
    if name.quote.isNone && constraintWords.contains (Text.upper name.value) then none
    else some ⟨name.value, rest⟩
  | .text name :: rest => some ⟨name, rest⟩
  | _ => none

namespace Item

def column (item : Item) : Column :=
  ⟨item.name, (CastTarget.ofType (String.intercalate " " (typeWords item.rest))).affinity⟩

/-- The column holds the keys of the rows: its type is exactly `INTEGER`, and it is the key either
by itself or by the constraint of the table. -/
def isKey (item : Item) (keys : List (List String)) : Bool :=
  (typeWords item.rest).map Text.upper == ["INTEGER"] &&
    ((hasPair "PRIMARY" "KEY" item.rest && !hasPair "KEY" "DESC" item.rest) ||
      keys.contains [Database.fold item.name])

end Item

/-- The table that a statement makes, without rows. A table without a key column has the position
after its columns instead. -/
def table (name sql : String) : Table :=
  let all := items sql
  let columns := all.filterMap Item.ofTokens?
  let keys := (all.filter fun item => (Item.ofTokens? item).isNone).filterMap keyNames
  ⟨name, columns.map Item.column,
    (columns.findIdx? fun item => item.isKey keys).getD columns.length, []⟩

end GridReport.Store.Schema
