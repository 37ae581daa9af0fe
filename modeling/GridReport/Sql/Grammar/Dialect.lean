import GridReport.Sql.Grammar.Basic

/-!
The two readings of a text: the one by which it is checked, and the one by which the database works
it out. They differ in how tightly operators bind and in a few clauses.
-/

namespace GridReport.Sql

/-- A reading: the binding of operators, where a greater number binds more tightly, and the clauses
that are accepted. -/
structure Dialect where
  /-- Operators that are symbols. -/
  symbols : List (String × Nat)
  /-- Operators that are words. -/
  words : List (String × Nat)
  /-- The operand of a sign. -/
  sign : Nat
  /-- The operand of `NOT`. -/
  negation : Nat
  /-- The pattern of `LIKE`. -/
  pattern : Nat
  /-- The bounds of `BETWEEN`. -/
  bounds : Nat
  /-- `INTERSECT`, where the other set operators are 1. -/
  intersection : Nat
  /-- A query in brackets may be a statement or stand between set operators. -/
  bracketedQueries : Bool
  /-- `OFFSET` needs no `LIMIT` in front of it. -/
  looseOffset : Bool
  /-- A word `END` right after a statement ends the text. -/
  endCloses : Bool
deriving Repr, DecidableEq

namespace Dialect

def level (rank : Nat) (operators : List String) : List (String × Nat) :=
  operators.map fun operator => (operator, rank)

def patternWords : List String := ["LIKE", "ILIKE", "SIMILAR", "REGEXP", "RLIKE"]

def checking : Dialect where
  symbols :=
    level 16 ["->", "->>", "#>", "#>>", "@>", "<@", "#-", "@?", "@@", "&&", "^@"] ++
    level 20 ["=", "<", "<=", "<>", "!=", ">", ">=", "==", "<=>", "~", "~*", "!~", "!~*", "~~",
      "~~*", "!~~", "!~~*"] ++
    level 21 ["|"] ++ level 22 ["^", "#", ">>", "<<"] ++ level 23 ["&"] ++
    level 30 ["+", "-"] ++ level 40 ["*", "/", "%", "||"] ++ level 50 ["::", "!"]
  words :=
    level 5 ["OR"] ++ level 10 ["AND"] ++ level 17 ["IS"] ++ level 19 patternWords ++
    level 20 ["IN", "BETWEEN", "OPERATOR"] ++ level 24 ["XOR"] ++ level 40 ["DIV"]
  sign := 40
  negation := 15
  pattern := 19
  bounds := 20
  intersection := 2
  bracketedQueries := true
  looseOffset := true
  endCloses := true

/-- The reading by which the database works a text out. -/
def working : Dialect where
  symbols :=
    level 20 ["=", "<>", "!=", "=="] ++ level 22 ["<", "<=", ">", ">="] ++
    level 26 ["&", "|"] ++ level 30 ["+", "-"] ++ level 40 ["*", "/", "%"] ++
    level 45 ["||", "->", "->>"]
  words :=
    level 5 ["OR"] ++ level 10 ["AND"] ++ level 20 ["IS", "IN", "BETWEEN"] ++
    level 20 ["LIKE", "REGEXP"]
  sign := 50
  negation := 15
  pattern := 20
  bounds := 20
  intersection := 1
  bracketedQueries := false
  looseOffset := false
  endCloses := false

/-- The binding of the operator that comes first, zero if there is none. -/
def next (dialect : Dialect) (lexemes : List Lexeme) : Nat :=
  match lexemes.map Lexeme.token with
  | .symbol spelling :: _ => (dialect.symbols.lookup spelling).getD 0
  | token :: tail =>
    match token.keyword with
    | "NOT" =>
      match (tail.head?.map Token.keyword).getD "" with
      | "IN" => (dialect.words.lookup "IN").getD 0
      | "BETWEEN" => (dialect.words.lookup "BETWEEN").getD 0
      | other => if patternWords.contains other then (dialect.words.lookup other).getD 0 else 0
    | "AT" => if tail.take 2 |>.map Token.keyword |> (· == ["TIME", "ZONE"]) then 41 else 0
    | word => (dialect.words.lookup word).getD 0
  | [] => 0

end Dialect

/-- The grammar of what may be nested: an expression whose operators bind more tightly than a rank,
and a query. -/
structure Grammar where
  dialect : Dialect
  tighter : Nat → Parse Expr
  query : Parse Query

def Grammar.expression (grammar : Grammar) : Parse Expr := grammar.tighter 0

def Grammar.expressions (grammar : Grammar) : Parse (List Expr) :=
  Parse.commaList grammar.expression

end GridReport.Sql
