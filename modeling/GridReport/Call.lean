import GridReport.Connection
import GridReport.Engine
import GridReport.Parameter
import GridReport.Sql.Catalog
import GridReport.Store.Address
import GridReport.Store.Marks

/-!
An open database, and the calls that ask it for rows.

A query is prepared, its parameters are given values, and its rows are read one after another. A
call leaves what the engine has left when it ends, also if it fails.
-/

namespace GridReport

/-- An open database. -/
structure Session [Engine] where
  source : String
  home : Engine.Connection

/-- The numbers in the first column of a query's rows. -/
structure QueryValues where
  values : List Float
  /-- The rows left out because they hold nothing there. -/
  skipped : Nat

/-- What comes of a call: its answer, and what it leaves of the session and of the files. -/
structure Call [Engine] (α : Type) where
  answer : Except Error α
  session : Session
  files : Files

def Call.map [Engine] {α β : Type} (f : α → β) (call : Call α) : Call β :=
  ⟨call.answer.map f, call.session, call.files⟩

/-- The answer of a call with the session after it, where the files are of no interest. -/
instance [Engine] {α : Type} : CoeOut (Call α) (Except Error (α × Session)) where
  coe call := call.answer.map (·, call.session)

namespace Session

/-! Values for the parameters of a statement. -/

/-- Refuses a statement with parameters where no values are given. -/
def takesNothing (parameters : List String) : Except Store.Fault Unit :=
  match Store.Marks.valueCount parameters with
  | 0 => .ok ()
  | needed => .error (.parameterCount 0 needed)

/-- Refuses parameters that do not fit the placeholders of a query: first a placeholder without a
value, then a value without a placeholder. -/
def checkParameters (query : Sql.ReadQuery) (parameters : List Parameter) :
    Except ConfigurationCause Unit :=
  let given := parameters.map Parameter.name
  match query.placeholders.find? fun name => !given.contains name with
  | some name => .error (.unboundParameter name)
  | none =>
    match given.find? fun name => !query.placeholders.contains name with
    | some name => .error (.unknownParameter name)
    | none => .ok ()

/-- The values by name as the database binds them: what is no number is nothing, and of two values
for one name the last counts. -/
def bindings (parameters : List Parameter) : List (String × Store.Cell) :=
  (parameters.map fun parameter =>
    let bound :=
      match parameter.value with
      | .real value => Store.Cell.ofFloat value
      | other => other
    (parameter.name, bound)).reverse

/-- Refuses the first value whose name the statement does not have. -/
def takesNames (values : List Parameter) (parameters : List String) : Except Store.Fault Unit :=
  match values.find? fun value => !parameters.contains value.name with
  | none => .ok ()
  | some value => .error (.parameterName value.name)

/-- The value that a parameter of a statement is bound to; one without a value is nothing. -/
def valueFor (parameters : List Parameter) (name : String) : Store.Cell :=
  ((bindings parameters).lookup name).getD .null

/-- The numbers that rows start with, where some may start with nothing. -/
def numbersOf (found : List (Option Float)) : QueryValues :=
  let values := found.filterMap id
  ⟨values, found.length - values.length⟩

/-! Calls. -/

variable [Engine] {α : Type}

/-- Opens the database that a connection names, for reading only. White space around its target does
not count. -/
def connect (files : Files) (connection : Connection) : Except Error Session :=
  let source := Text.trim connection.target
  if Store.Address.scheme.isPrefixOf source.toList || files.isFile source then
    ((Engine.connect files source).map (Session.mk source)).mapError .database
  else .error (.configuration (.databaseFile source))

/-- A call that ends before the database is asked. -/
def refuse (session : Session) (files : Files) (error : Error) : Call α :=
  ⟨.error error, session, files⟩

def finish (session : Session) (answer : Except Store.Fault α)
    (left : Store.World Engine.Connection) : Call α :=
  ⟨answer.mapError .database, { session with home := left.connection }, left.files⟩

/-- Prepares a query and reads its rows, if the statement takes the values. -/
def ask (session : Session) (files : Files) (query : Sql.ReadQuery)
    (takes : List String → Except Store.Fault Unit) (values : String → Store.Cell)
    (read : Store.NamedRow → Except Store.Fault α) : Call (List α) :=
  match Engine.prepare ⟨session.home, files⟩ query.sql with
  | (.error fault, left) => session.finish (.error fault) left
  | (.ok statement, left) =>
    match takes (Engine.parameters statement) with
    | .error fault => session.finish (.error fault) left
    | .ok () =>
      let (answer, last) :=
        (Engine.run statement values left).readAll (Engine.columns statement) read
      session.finish answer last

/-- Reads all rows of a query of the catalog, which takes no parameters. -/
def records (session : Session) (files : Files) (catalog : Sql.Catalog) (query : Sql.ChartQuery)
    (read : Store.NamedRow → Except Store.Fault α) : Call (List α) :=
  match catalog.get files query with
  | .error error => session.refuse files error
  | .ok text => session.ask files text takesNothing (fun _ => .null) read

def transferTimes (session : Session) (files : Files) (catalog : Sql.Catalog) :
    Call (List TransferTimes) :=
  session.records files catalog .transferTimes Store.NamedRow.transferTimes

def fileSizes (session : Session) (files : Files) (catalog : Sql.Catalog) : Call (List FileSize) :=
  session.records files catalog .fileSizes Store.NamedRow.fileSize

def replicaLifetimes (session : Session) (files : Files) (catalog : Sql.Catalog) :
    Call (List ReplicaLifetime) :=
  session.records files catalog .replicaLifetimes Store.NamedRow.replicaLifetime

def transferTraffic (session : Session) (files : Files) (catalog : Sql.Catalog) :
    Call (List TransferTraffic) :=
  session.records files catalog .transferTraffic Store.NamedRow.transferTraffic

/-- The numbers in the first column of a query's rows. Every placeholder must have a value, and
every value a placeholder. -/
def queryValues (session : Session) (files : Files) (query : Sql.ReadQuery)
    (parameters : List Parameter) : Call QueryValues :=
  match checkParameters query parameters with
  | .error cause => session.refuse files (.configuration cause)
  | .ok () =>
    (session.ask files query (takesNames parameters) (valueFor parameters) fun row =>
      row.number? 0).map numbersOf

end Session

end GridReport
