/-!
Kinds of statements.
-/

namespace GridReport.Sql

/-- What a statement does to the database. -/
inductive StatementKind where
  | select
  | insert
  | update
  | delete
  /-- Changes of the schema. -/
  | definition
  | other
deriving Repr, DecidableEq

def StatementKind.label : StatementKind → String
  | .select => "SELECT"
  | .insert => "INSERT"
  | .update => "UPDATE"
  | .delete => "DELETE"
  | .definition => "DDL"
  | .other => "OTHER"

end GridReport.Sql
