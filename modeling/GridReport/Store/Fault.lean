/-!
Faults of the database: cells of the wrong type, parameters that do not fit, and statements that
the engine refuses.
-/

namespace GridReport.Store

inductive CellKind where
  | null
  | integer
  | real
  | text
  | blob
deriving Repr, DecidableEq

/-- The spelling of a storage class. -/
def CellKind.label : CellKind → String
  | .null => "Null"
  | .integer => "Integer"
  | .real => "Real"
  | .text => "Text"
  | .blob => "Blob"

/-- The result code with which the engine refuses a call. -/
inductive EngineCode where
  | statement
  | permission
  | readOnly
  | cannotOpen
  | constraint
  | mismatch
  | misuse
  | notDatabase
deriving Repr, DecidableEq

/-- The number and the wording of a result code. -/
def EngineCode.message : EngineCode → String
  | .statement => "Error code 1: SQL error or missing database"
  | .permission => "Error code 3: Access permission denied"
  | .readOnly => "Error code 8: Attempt to write a readonly database"
  | .cannotOpen => "Error code 14: Unable to open the database file"
  | .constraint => "Error code 1555: A PRIMARY KEY constraint failed"
  | .mismatch => "Error code 20: Data type mismatch"
  | .misuse => "Error code 21: Library used incorrectly"
  | .notDatabase => "Error code 26: File opened that is not a database file"

/-- Why the database gave no rows. -/
inductive Fault where
  /-- A cell of the wrong storage class, by column index and column name. -/
  | columnType (kind : CellKind) (index : Nat) (name : String)
  /-- A column that the rows do not have. -/
  | columnIndex (index : Nat)
  /-- A statement run with fewer or more parameters than it binds. -/
  | parameterCount (given needed : Nat)
  /-- A parameter that the statement does not bind. -/
  | parameterName (name : String)
  /-- A refusal of the engine. -/
  | engine (code : EngineCode) (text : String)
  /-- A refusal of a statement, at a byte offset of its text. -/
  | statementAt (text sql : String) (offset : Nat)
deriving Repr, DecidableEq

def Fault.message : Fault → String
  | .columnType kind index name =>
    "Invalid column type " ++ kind.label ++ " at index: " ++ toString index ++ ", name: " ++ name
  | .columnIndex index => "Invalid column index: " ++ toString index
  | .parameterCount given needed =>
    "Wrong number of parameters passed to query. Got " ++ toString given ++ ", needed " ++
      toString needed
  | .parameterName name => "Invalid parameter name: " ++ name
  | .engine _ text => text
  | .statementAt text sql offset => text ++ " in " ++ sql ++ " at offset " ++ toString offset

/-- The engine's result code below a fault, if the engine was asked at all. -/
def Fault.code : Fault → Option EngineCode
  | .engine code _ => some code
  | .statementAt _ _ _ => some .statement
  | _ => none

end GridReport.Store
