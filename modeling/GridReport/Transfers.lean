import GridReport.Records
import GridReport.Series.Align

/-!
Transfers over time: how many were queued and started in each bin, and how long they took.
-/

namespace GridReport.Transfers

/-- Events in the order of their timestamps; equal timestamps keep their order. -/
def sortEvents (events : List Event) : List Event :=
  events.mergeSort fun a b => decide (a.timestamp ≤ b.timestamp)

def queuedEvents (rows : List TransferTimes) : List Event :=
  sortEvents (rows.map fun row => Event.count row.queuedAt)

def startedEvents (rows : List TransferTimes) : List Event :=
  sortEvents ((rows.filterMap TransferTimes.startedAt).map Event.count)

def neverStarted (rows : List TransferTimes) : Nat :=
  (rows.filter fun row => row.startedAt.isNone).length

/-- Queued and started transfers on one axis. Without any start the second series is empty. -/
def aligned (rows : List TransferTimes) (interval : Int) : Except Error AlignedSeries := do
  let queued ← Series.ofEvents (queuedEvents rows) interval
  let started := startedEvents rows
  if started.isEmpty then AlignedSeries.ofSeries queued (Series.empty interval)
  else do
    let series ← Series.ofEvents started interval
    AlignedSeries.ofSeries queued series

/-- The duration of a transfer that started and finished, unless it finished before it started. -/
def duration? (row : TransferTimes) : Except Defect (Option Float) :=
  match row.startedAt, row.finishedAt with
  | some started, some finished =>
    if started ≤ finished then (Tick.checked (finished - started)).map (some ∘ Float.ofInt)
    else .ok none
  | _, _ => .ok none

def durations (rows : List TransferTimes) : Except Defect (List Float) :=
  (rows.mapM duration?).map (·.filterMap id)

/-- The finish and the start of the transfers that finished before they started. -/
def reversed (rows : List TransferTimes) : List (Int × Int) :=
  rows.filterMap fun row =>
    match row.startedAt, row.finishedAt with
    | some started, some finished =>
      if started ≤ finished then none else some (finished, started)
    | _, _ => none

end GridReport.Transfers
