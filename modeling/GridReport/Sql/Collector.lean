import GridReport.Sql.Placeholders

/-!
The visitor that collects the placeholders of a query.

It visits everything in a tree, from left to right, and keeps each name where it comes first. A
placeholder without a name ends the visit.
-/

namespace GridReport.Sql

/-- A part of a visit: from the names before it to those after it, unless it ends the visit. -/
abbrev Collector := List String → Option (List String)

def note (name : String) : Collector := fun names =>
  if isPositional name then none else some (if name ∈ names then names else names ++ [name])

mutual

def Expr.collect : Expr → Collector
  | .literal _ => pure
  | .placeholder name => note name
  | .column _ _ => pure
  | .wildcard _ => pure
  | .unary _ operand => operand.collect
  | .binary _ left right => left.collect >=> right.collect
  | .quantified _ _ left right => left.collect >=> right.collect
  | .truth _ _ operand => operand.collect
  | .distinct _ left right => left.collect >=> right.collect
  | .inList _ operand items => operand.collect >=> Expr.collectAll items
  | .inQuery _ operand query => operand.collect >=> query.collect
  | .between _ operand low high => operand.collect >=> low.collect >=> high.collect
  | .matching _ _ operand pattern _ => operand.collect >=> pattern.collect
  | .choice operand conditions results otherwise =>
    Expr.collectIn operand >=> Expr.collectAll conditions >=>
      Expr.collectAll results >=> Expr.collectIn otherwise
  | .cast operand _ => operand.collect
  | .existence _ query => query.collect
  | .scalar query => query.collect
  | .nested inner => inner.collect
  | .tuple items => Expr.collectAll items
  | .collate operand _ => operand.collect
  | .call _ _ _ _ arguments clauses filter after =>
    Expr.collectAll arguments >=> Expr.collectAll clauses >=>
      Expr.collectIn filter >=> Expr.collectAll after
  | .form _ parts => Expr.collectAll parts

def Expr.collectAll : List Expr → Collector
  | [] => pure
  | head :: tail => head.collect >=> Expr.collectAll tail

/-- Collects from an expression that may be missing. -/
def Expr.collectIn : Option Expr → Collector
  | none => pure
  | some inner => inner.collect

def Query.collect : Query → Collector
  | .mk tables body order limit offset fetch =>
    CommonTable.collectAll tables >=> body.collect >=> OrderTerm.collectAll order >=>
      Expr.collectIn limit >=> Expr.collectIn offset >=> Expr.collectIn fetch

def Query.collectIn : Option Query → Collector
  | none => pure
  | some inner => inner.collect

def CommonTable.collectAll : List CommonTable → Collector
  | [] => pure
  | .mk _ _ query :: tail => query.collect >=> CommonTable.collectAll tail

def Body.collect : Body → Collector
  | .select _ leading items sources views condition grouping sorting having windows =>
    Expr.collectAll leading >=> Item.collectAll items >=> Source.collectAll sources >=>
      Expr.collectAll views >=> Expr.collectIn condition >=>
      Expr.collectAll grouping >=> Expr.collectAll sorting >=>
      Expr.collectIn having >=> Expr.collectAll windows
  | .nested query => query.collect
  | .values rows => Expr.collectAll rows
  | .table _ => pure
  | .combine _ _ left right => left.collect >=> right.collect
  | .insert _ _ rows others returned =>
    Query.collectIn rows >=> Expr.collectAll others >=> Item.collectAll returned
  | .update table _ values sources condition returned =>
    table.collect >=> Expr.collectAll values >=> Source.collectAll sources >=>
      Expr.collectIn condition >=> Item.collectAll returned

def Item.collectAll : List Item → Collector
  | [] => pure
  | .value expression _ _ :: tail => expression.collect >=> Item.collectAll tail
  | .all :: tail => Item.collectAll tail
  | .allOf _ :: tail => Item.collectAll tail

def Source.collect : Source → Collector
  | .table _ arguments _ _ hints => Expr.collectAll arguments >=> Expr.collectAll hints
  | .derived query _ _ => query.collect
  | .rows parts _ => Expr.collectAll parts
  | .join _ left right condition _ =>
    left.collect >=> right.collect >=> Expr.collectIn condition
  | .grouped inner _ => inner.collect

def Source.collectAll : List Source → Collector
  | [] => pure
  | head :: tail => head.collect >=> Source.collectAll tail

def OrderTerm.collectAll : List OrderTerm → Collector
  | [] => pure
  | .mk expression _ _ :: tail => expression.collect >=> OrderTerm.collectAll tail

end

/-- Collects from a statement; only a query is visited. -/
def Statement.collect : Statement → Collector
  | .query inner => inner.collect
  | _ => pure

end GridReport.Sql
