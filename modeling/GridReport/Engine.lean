import GridReport.Files
import GridReport.Store.Reading

/-!
The database engine.

The engine is a library that is called. What the program asks of it is put down here as a class: a
database is opened, a statement is prepared, looked at and run. What the engine answers, and what it
does to the files meanwhile, is not decided here. An answer has an end: a run that never ends gives
none.
-/

namespace GridReport

namespace Store

structure World (Connection : Type) where
  connection : Connection
  files : Files

/-- What comes of a statement that is stepped through. -/
structure Answer (World : Type) where
  /-- The rows, each with what is left when it has come. -/
  rows : List (List Cell × World)
  /-- The fault that comes after the rows, if there is one. -/
  fault? : Option Fault
  /-- What is left in the end. -/
  left : World

namespace Answer

variable {World α : Type}

/-- Reads the rows one after another, and stops at the first that does not fit. What is asked for no
more is not done, so what is left depends on where reading stops. -/
def readAll (answer : Answer World) (columns : List String) (read : NamedRow → Except Fault α) :
    Except Fault (List α) × World :=
  readFrom answer.rows
where
  readFrom : List (List Cell × World) → Except Fault (List α) × World
    | [] =>
      match answer.fault? with
      | none => (.ok [], answer.left)
      | some fault => (.error fault, answer.left)
    | (cells, left) :: rest =>
      match read ⟨columns, cells⟩ with
      | .error fault => (.error fault, left)
      | .ok record =>
        let others := readFrom rest
        (others.1.map (record :: ·), others.2)

end Answer

end Store

class Engine where
  /-- An open database. -/
  Connection : Type
  /-- A statement that has been prepared. -/
  Statement : Type
  /-- Opens the database at a path or an address, for reading only. -/
  connect : Files → String → Except Store.Fault Connection
  /-- Prepares the first statement of a text. -/
  prepare : Store.World Connection → String →
    Except Store.Fault Statement × Store.World Connection
  /-- The parameters of a statement, as they are written in it. -/
  parameters : Statement → List String
  /-- The names of the columns of its rows. -/
  columns : Statement → List String
  /-- Runs a statement with values for its parameters. -/
  run : Statement → (String → Store.Cell) → Store.World Connection →
    Store.Answer (Store.World Connection)

end GridReport
