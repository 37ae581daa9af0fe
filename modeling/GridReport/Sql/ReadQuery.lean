import GridReport.Error
import GridReport.Files
import GridReport.Json.Record
import GridReport.Sql.Collector
import GridReport.Sql.Grammar.Statement
import GridReport.Text.Blank

/-!
Queries that only read, with the placeholders that need a value.

A text is checked in a fixed order: that it can be parsed, that it holds one statement, that this is
a query, and that all its placeholders have names.
-/

namespace GridReport.Sql

/-- A query and its placeholders in the order of their first occurrence. -/
structure ReadQuery where
  sql : String
  placeholders : List String
deriving Repr, DecidableEq

namespace ReadQuery

/-- Accepts the statements of a text if they are one query without positional placeholders. -/
def ofStatements (text : String) : List Statement → Except QueryCause ReadQuery
  | [] => .error .noStatement
  | [statement] =>
    if statement.kind = .select then
      match statement.collect [] with
      | none => .error (.positional text)
      | some names => .ok ⟨Text.trim text, names⟩
    else .error (.notSelect text statement.kind)
  | several => .error (.severalStatements text several.length)

/-- Accepts a text that is one query without positional placeholders. -/
def ofText (text : String) : Except QueryCause ReadQuery :=
  match parse .checking text with
  | .error _ => .error (.unparsable text)
  | .ok statements => ofStatements text statements

def ofFile (files : Files) (path : String) : Except Error ReadQuery :=
  match files.readText path with
  | .error fault => .error (.file fault)
  | .ok text => (ofText text).mapError .query

def toJson (query : ReadQuery) : Json :=
  .object [("sql", .text query.sql), ("placeholders", .list (query.placeholders.map .text))]

def form : Json.Form := ⟨"SqlQuery", [⟨"sql", Json.textValue⟩, ⟨"placeholders", Json.textsValue⟩]⟩

def ofDocument (text : String) : Except Json.Fault ReadQuery :=
  match Json.readAll (Json.record form) text with
  | .ok [.text sql, .list placeholders] => .ok ⟨sql, placeholders.filterMap Json.text?⟩
  | .ok _ => .ok ⟨"", []⟩
  | .error fault => .error fault

end ReadQuery

end GridReport.Sql
