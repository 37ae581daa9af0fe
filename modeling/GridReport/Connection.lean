import GridReport.Error
import GridReport.Files
import GridReport.Json.Printer
import GridReport.Json.Record
import GridReport.Text.Blank

/-!
The connection file: which database a run reads.
-/

namespace GridReport

/-- Where the database is. -/
structure Connection where
  target : String
deriving Repr, DecidableEq

namespace Connection

/-- The file that is read if no other is named. -/
def defaultPath : String := "config/psql_connection.json"

def form : Json.Form := ⟨"DatabaseConfig", [⟨"connectionStr", Json.textValue⟩]⟩

def parse (text : String) : Except Json.Fault Connection :=
  match Json.readAll (Json.record form) text with
  | .ok [.text target] => .ok ⟨target⟩
  | .ok _ => .ok ⟨""⟩
  | .error fault => .error fault

def toJson (connection : Connection) : Json := .object [("connectionStr", .text connection.target)]

/-- The connection that a file names. A file that cannot be read is a configuration error, and so is
a target of white space. -/
def load (files : Files) (path : String) : Except Error Connection :=
  match files.readText path with
  | .error fault => .error (.configuration (.connectionFile path fault))
  | .ok content =>
    match parse content with
    | .error fault => .error (.document fault)
    | .ok connection =>
      if Text.isAllBlank connection.target then .error (.configuration (.blankConnection path))
      else .ok connection

end Connection

end GridReport
