import GridReport.Sql.Grammar.Statement
import GridReport.Store.Change
import GridReport.Store.Marks

/-!
Statements that the database has accepted.

A text is cut into pieces, read as a statement and settled against the tables, in this order; the
first refusal in the text wins. Only then values are given to its parameters, and only then it is
run.
-/

namespace GridReport.Store

/-- What a statement does. -/
inductive Action where
  | query (plan : Plan)
  | change (change : Change)
  /-- Nothing that shows. -/
  | idle
  /-- There is no statement. -/
  | missing

/-- The columns of the rows that a statement gives. -/
def Action.columns : Action → List String
  | .query plan => plan.columns.map ResultColumn.name
  | .change made => made.columns
  | .idle => []
  | .missing => []

/-- A statement that is ready to be run. -/
structure Prepared where
  /-- The parameters that it takes, as they are written. -/
  parameters : List String
  action : Action

namespace Prepared

/-- The refusal of a token that cannot be taken, or of a text that ends too early. -/
def refusal (sql spelled : String) : Option Sql.Lexeme → Fault
  | some lexeme =>
    .statementAt ("near \"" ++ lexeme.source ++ "\": syntax error") sql
      (Sql.Lexer.offsetOf spelled lexeme.index)
  | none => .engine .statement "incomplete input"

/-- The bytes in front of a refusal; one without a place comes last. -/
def placeOf : Fault → Option Nat
  | .statementAt _ _ offset => some offset
  | _ => none

def statementsOf (sql : String) (pieces : List Marks.Piece) : Except Fault (List Sql.Statement) :=
  let spelled := Marks.spelled pieces
  let unknown (piece : Marks.Piece) : Fault :=
    .statementAt ("unrecognized token: \"" ++ piece.text ++ "\"") sql piece.offset
  match Marks.firstUnknown? pieces, Sql.parse .working spelled with
  | none, .ok statements => .ok statements
  | some piece, .ok _ => .error (unknown piece)
  | none, .error left => .error (refusal sql spelled left)
  | some piece, .error left =>
    let other := refusal sql spelled left
    match placeOf other with
    | some place => .error (if piece.offset ≤ place then unknown piece else other)
    | none => .error (unknown piece)

/-- Settles a statement of a text against the tables. -/
def actionOf (tables : Except Fault Database) (sql spelled : String) :
    Sql.Statement → Except Fault Action := fun statement => do
  let setting : Setting := ⟨tables, [], ⟨sql, spelled, [], Prepare.refused⟩, []⟩
  match statement with
  | .query (.mk common body order limit offset fetch) =>
    match Change.ofBody? (addTables setting common) body with
    | some change => return .change (← change)
    | none => return .query (← prepareQuery setting (.mk common body order limit offset fetch))
  | .insert body =>
    match Change.ofBody? setting body with
    | some change => return .change (← change)
    | none => throw Prepare.unsupported
  | .update body =>
    match Change.ofBody? setting body with
    | some change => return .change (← change)
    | none => throw Prepare.unsupported
  | .delete [.table path _ label _ _] condition =>
    return .change (← Change.deletion setting path label condition)
  | .delete _ _ => throw Prepare.unsupported
  | .drop named optional => return .change (← Change.removal setting named optional)
  | .command _ => return .idle

/-- Prepares the first statement of a text. Only a text that says so is taken for a change. -/
def ofText (tables : Except Fault Database) (sql : String) : Except Fault Prepared := do
  let pieces := Marks.firstStatement sql
  match ← statementsOf sql pieces with
  | [] => return ⟨[], .missing⟩
  | statement :: _ =>
    match ← actionOf tables sql (Marks.spelled pieces) statement with
    | .change change =>
      if Marks.onlyReads sql then throw Prepare.unsupported
      else return ⟨Marks.parameters sql, .change change⟩
    | action => return ⟨Marks.parameters sql, action⟩

/-- Runs a statement with values for its parameters: the rows that it gives, and the database that
it leaves in the place of the old one. A database that is not writable refuses a change. -/
def run (prepared : Prepared) (values : String → Cell) (writable : Bool) :
    Rows (List Cell) × Option Database :=
  let view : View := ⟨values, [], []⟩
  match prepared.action with
  | .query plan => (plan.rows view, none)
  | .change change =>
    if writable then
      match change.make view with
      | .ok changed => (.ofList changed.rows, some changed.database)
      | .error fault => (⟨[], some fault⟩, none)
    else (⟨[], some (.engine .readOnly "attempt to write a readonly database")⟩, none)
  | .idle => (.ofList [], none)
  | .missing => (⟨[], some (.engine .misuse "not an error")⟩, none)

end Prepared

namespace Database

def execute (database : Database) (sql : String) : Except Fault Database := do
  let pieces := Marks.pieces sql
  (← Prepared.statementsOf sql pieces).foldlM (fun (current : Database) statement => do
    let action ← Prepared.actionOf (.ok current) sql (Marks.spelled pieces) statement
    let (rows, changed) := Prepared.run ⟨[], action⟩ (fun _ => .null) true
    let _ ← rows.all
    return changed.getD current) database

end Database

end GridReport.Store
