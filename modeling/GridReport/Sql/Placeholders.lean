import GridReport.Sql.Tree

/-!
The placeholders of a query, in visiting order.
-/

namespace GridReport.Sql

mutual

def Expr.placeholders : Expr → List String
  | .literal _ => []
  | .placeholder name => [name]
  | .column _ _ => []
  | .wildcard _ => []
  | .unary _ operand => operand.placeholders
  | .binary _ left right => left.placeholders ++ right.placeholders
  | .quantified _ _ left right => left.placeholders ++ right.placeholders
  | .truth _ _ operand => operand.placeholders
  | .distinct _ left right => left.placeholders ++ right.placeholders
  | .inList _ operand items => operand.placeholders ++ Expr.placeholdersOf items
  | .inQuery _ operand query => operand.placeholders ++ query.placeholders
  | .between _ operand low high => operand.placeholders ++ low.placeholders ++ high.placeholders
  | .matching _ _ operand pattern _ => operand.placeholders ++ pattern.placeholders
  | .choice operand conditions results otherwise =>
    Expr.placeholdersIn operand ++ Expr.placeholdersOf conditions ++
      Expr.placeholdersOf results ++ Expr.placeholdersIn otherwise
  | .cast operand _ => operand.placeholders
  | .existence _ query => query.placeholders
  | .scalar query => query.placeholders
  | .nested inner => inner.placeholders
  | .tuple items => Expr.placeholdersOf items
  | .collate operand _ => operand.placeholders
  | .call _ _ _ _ arguments clauses filter after =>
    Expr.placeholdersOf arguments ++ Expr.placeholdersOf clauses ++
      Expr.placeholdersIn filter ++ Expr.placeholdersOf after
  | .form _ parts => Expr.placeholdersOf parts

def Expr.placeholdersOf : List Expr → List String
  | [] => []
  | head :: tail => head.placeholders ++ Expr.placeholdersOf tail

/-- The placeholders of an expression that may be missing. -/
def Expr.placeholdersIn : Option Expr → List String
  | none => []
  | some inner => inner.placeholders

def Query.placeholders : Query → List String
  | .mk tables body order limit offset fetch =>
    CommonTable.placeholdersOf tables ++ body.placeholders ++ OrderTerm.placeholdersOf order ++
      Expr.placeholdersIn limit ++ Expr.placeholdersIn offset ++ Expr.placeholdersIn fetch

def Query.placeholdersIn : Option Query → List String
  | none => []
  | some inner => inner.placeholders

def CommonTable.placeholdersOf : List CommonTable → List String
  | [] => []
  | .mk _ _ query :: tail => query.placeholders ++ CommonTable.placeholdersOf tail

def Body.placeholders : Body → List String
  | .select _ leading items sources views condition grouping sorting having windows =>
    Expr.placeholdersOf leading ++ Item.placeholdersOf items ++ Source.placeholdersOf sources ++
      Expr.placeholdersOf views ++ Expr.placeholdersIn condition ++
      Expr.placeholdersOf grouping ++ Expr.placeholdersOf sorting ++
      Expr.placeholdersIn having ++ Expr.placeholdersOf windows
  | .nested query => query.placeholders
  | .values rows => Expr.placeholdersOf rows
  | .table _ => []
  | .combine _ _ left right => left.placeholders ++ right.placeholders
  | .insert _ _ rows others returned =>
    Query.placeholdersIn rows ++ Expr.placeholdersOf others ++ Item.placeholdersOf returned
  | .update table _ values sources condition returned =>
    table.placeholders ++ Expr.placeholdersOf values ++ Source.placeholdersOf sources ++
      Expr.placeholdersIn condition ++ Item.placeholdersOf returned

def Item.placeholdersOf : List Item → List String
  | [] => []
  | .value expression _ _ :: tail => expression.placeholders ++ Item.placeholdersOf tail
  | .all :: tail => Item.placeholdersOf tail
  | .allOf _ :: tail => Item.placeholdersOf tail

def Source.placeholders : Source → List String
  | .table _ arguments _ _ hints => Expr.placeholdersOf arguments ++ Expr.placeholdersOf hints
  | .derived query _ _ => query.placeholders
  | .rows parts _ => Expr.placeholdersOf parts
  | .join _ left right condition _ =>
    left.placeholders ++ right.placeholders ++ Expr.placeholdersIn condition
  | .grouped inner _ => inner.placeholders

def Source.placeholdersOf : List Source → List String
  | [] => []
  | head :: tail => head.placeholders ++ Source.placeholdersOf tail

def OrderTerm.placeholdersOf : List OrderTerm → List String
  | [] => []
  | .mk expression _ _ :: tail => expression.placeholders ++ OrderTerm.placeholdersOf tail

end

/-- The placeholders of a statement; only those of a query matter. -/
def Statement.placeholders : Statement → List String
  | .query inner => inner.placeholders
  | _ => []

/-- The placeholder has no name that a value could be given to. -/
def isPositional (placeholder : String) : Bool :=
  placeholder.startsWith "?" || placeholder.startsWith "$"

end GridReport.Sql
