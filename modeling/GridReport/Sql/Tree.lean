import GridReport.Sql.Kind
import GridReport.Sql.Token

/-!
The tree of a query.

The parts of a node stand in the order in which they are visited: the queries of `WITH` before the
body, the body before `ORDER BY`, `LIMIT` and `OFFSET`, the operands of an expression from left to
right, and the conditions of a `CASE` before its results. Syntax that holds expressions but has no
further meaning here is a `form`: a keyword and the expressions in it.
-/

namespace GridReport.Sql

/-- A value written out. -/
inductive Literal where
  | number (digits : String)
  | text (value : String)
  | national (value : String)
  /-- Bytes, as digits in base sixteen. -/
  | hex (digits : String)
  /-- A number, as digits in base sixteen. -/
  | hexNumber (digits : String)
  | boolean (value : Bool)
  | null
deriving Repr, DecidableEq

/-- What `IS` asks for. -/
inductive Truth where
  | null
  | isTrue
  | isFalse
  | unknown
deriving Repr, DecidableEq

/-- How the rows of two queries are put together. -/
inductive SetOperator where
  | union
  | except
  | intersect
deriving Repr, DecidableEq

inductive JoinKind where
  | cross
  | inner
  | natural
  | left
  | right
  | full
  /-- A join of another dialect. -/
  | foreign
deriving Repr, DecidableEq

structure TypeName where
  words : List String
deriving Repr, DecidableEq

mutual

inductive Expr where
  | literal (value : Literal)
  /-- A value given from outside, by its sign and name or by its question mark. -/
  | placeholder (name : String)
  /-- A column, with the names of its table in front; `index` tokens stand before it. -/
  | column (path : List Name) (index : Nat)
  /-- All columns, in a function call. -/
  | wildcard (path : List Name)
  | unary (operator : String) (operand : Expr)
  | binary (operator : String) (left right : Expr)
  /-- A comparison with `ANY` or `ALL` of a set. -/
  | quantified (operator quantifier : String) (left right : Expr)
  | truth (negated : Bool) (asked : Truth) (operand : Expr)
  | distinct (negated : Bool) (left right : Expr)
  | inList (negated : Bool) (operand : Expr) (items : List Expr)
  | inQuery (negated : Bool) (operand : Expr) (query : Query)
  | between (negated : Bool) (operand low high : Expr)
  | matching (keyword : String) (negated : Bool) (operand pattern : Expr) (escape : Option String)
  | choice (operand : Option Expr) (conditions results : List Expr) (otherwise : Option Expr)
  | cast (operand : Expr) (type : TypeName)
  | existence (negated : Bool) (query : Query)
  | scalar (query : Query)
  | nested (inner : Expr)
  | tuple (items : List Expr)
  | collate (operand : Expr) (collation : List Name)
  /-- A function call, with `index` tokens before it. `clauses` are expressions within its brackets
  after the arguments, `after` the ones that follow its filter; `plain` says that there is no such
  text. -/
  | call (function : List Name) (index : Nat) (isDistinct plain : Bool)
      (arguments clauses : List Expr) (filter : Option Expr) (after : List Expr)
  | form (keyword : String) (parts : List Expr)

/-- A query with its common tables, its body, the order and the part of its rows. -/
inductive Query where
  | mk (tables : List CommonTable) (body : Body) (order : List OrderTerm)
      (limit offset fetch : Option Expr)

/-- A query that later parts refer to by a name. -/
inductive CommonTable where
  | mk (name : Name) (columns : List Name) (query : Query)

inductive Body where
  /-- `leading` are expressions between `SELECT` and the items, `views`, `sorting` and `windows` the
  ones of clauses of other dialects. -/
  | select (isDistinct : Bool) (leading : List Expr) (items : List Item) (sources : List Source)
      (views : List Expr) (condition : Option Expr) (grouping sorting : List Expr)
      (having : Option Expr) (windows : List Expr)
  | nested (query : Query)
  /-- Rows written out, each of them a tuple. -/
  | values (rows : List Expr)
  | table (path : List Name)
  | combine (operator : SetOperator) (all : Bool) (left right : Body)
  /-- Rows put into a table; `others` are the expressions of the clauses around them, and `returned`
  is what is shown of each row. -/
  | insert (table : List Name) (columns : List Name) (rows : Option Query) (others : List Expr)
      (returned : List Item)
  /-- Cells of a table set anew; each assignment pairs a column with a value. -/
  | update (table : Source) (assigned : List (List Name)) (values : List Expr)
      (sources : List Source) (condition : Option Expr) (returned : List Item)

inductive Item where
  /-- An expression, its alias and its text. -/
  | value (expression : Expr) (label : Option Name) (written : String)
  | all
  | allOf (path : List Name)

inductive Source where
  /-- A table, or a function of `arguments` that gives rows; `hints` follow its alias. -/
  | table (path : List Name) (arguments : List Expr) (label : Option Name) (columns : List Name)
      (hints : List Expr)
  | derived (query : Query) (label : Option Name) (columns : List Name)
  /-- An expression that gives rows. -/
  | rows (parts : List Expr) (label : Option Name)
  | join (kind : JoinKind) (left right : Source) (condition : Option Expr) (shared : List Name)
  /-- A join in brackets. -/
  | grouped (inner : Source) (label : Option Name)

inductive OrderTerm where
  | mk (expression : Expr) (descending : Bool) (nullsFirst : Option Bool)

end

instance : Inhabited Expr := ⟨.literal .null⟩
instance : Inhabited Body := ⟨.table []⟩
instance : Inhabited Query := ⟨.mk [] default [] none none none⟩

inductive Statement where
  | query (query : Query)
  | insert (body : Body)
  | update (body : Body)
  /-- Rows of tables taken away, all of them or those that meet a condition. -/
  | delete (sources : List Source) (condition : Option Expr)
  /-- Tables taken away; a table that is not there is passed over if `optional` says so. -/
  | drop (tables : List (List Name)) (optional : Bool)
  /-- Anything else, by its kind. -/
  | command (kind : StatementKind)

def Statement.kind : Statement → StatementKind
  | .query _ => .select
  | .insert _ => .insert
  | .update _ => .update
  | .delete _ _ => .delete
  | .drop _ _ => .definition
  | .command kind => kind

end GridReport.Sql
