import GridReport.Records
import GridReport.Store.Cell

/-!
Rows of cells read as records.

A cell is read only as what it is: an integer column takes integers, a number column integers and
reals, a text column text, and nothing is taken only where the record has room for it. The first row
that does not fit, and in it the first column in reading order, decides the fault; there are no
partial lists.
-/

namespace GridReport.Store

/-- A row with the names of its columns. -/
structure NamedRow where
  columns : List String
  cells : List Cell

namespace NamedRow

def cell (row : NamedRow) (position : Nat) : Except Fault Cell :=
  match row.cells[position]? with
  | some cell => .ok cell
  | none => .error (.columnIndex position)

/-- The fault of a cell of the wrong storage class. -/
def misfit (row : NamedRow) (position : Nat) (cell : Cell) : Fault :=
  .columnType cell.kind position ((row.columns[position]?).getD "")

def integer (row : NamedRow) (position : Nat) : Except Fault Int := do
  match ← row.cell position with
  | .integer value => return value
  | other => throw (row.misfit position other)

def integer? (row : NamedRow) (position : Nat) : Except Fault (Option Int) := do
  match ← row.cell position with
  | .null => return none
  | .integer value => return some value
  | other => throw (row.misfit position other)

def number? (row : NamedRow) (position : Nat) : Except Fault (Option Float) := do
  match ← row.cell position with
  | .null => return none
  | .integer value => return some (Float.ofInt value)
  | .real value => return some value
  | other => throw (row.misfit position other)

def text (row : NamedRow) (position : Nat) : Except Fault String := do
  match ← row.cell position with
  | .text value => return value
  | other => throw (row.misfit position other)

def transferTimes (row : NamedRow) : Except Fault TransferTimes := do
  let queuedAt ← row.integer 0
  let startedAt ← row.integer? 1
  let finishedAt ← row.integer? 2
  return ⟨queuedAt, startedAt, finishedAt⟩

def fileSize (row : NamedRow) : Except Fault FileSize := do
  return ⟨← row.integer 0⟩

def replicaLifetime (row : NamedRow) : Except Fault ReplicaLifetime := do
  let storageElement ← row.text 0
  let createdAt ← row.integer 1
  let removedAt ← row.integer? 2
  return ⟨storageElement, createdAt, removedAt⟩

/-- Reads the traffic of a transfer, which is read before its other columns; no traffic is zero. -/
def transferTraffic (row : NamedRow) : Except Fault TransferTraffic := do
  let traffic ← row.number? 2
  let storageElement ← row.text 0
  let finishedAt ← row.integer 1
  return ⟨storageElement, finishedAt, traffic.getD 0.0⟩

end NamedRow

end GridReport.Store
