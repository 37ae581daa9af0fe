import GridReport.Call
import GridReport.Chart.Plot
import GridReport.Command.Act
import GridReport.Command.Arguments
import GridReport.Replicas
import GridReport.Summary
import GridReport.Transfers

/-!
How each chart comes about: the rows that are read, and what is made of them.
-/

namespace GridReport.Command

/-- A chart with everything that is known before the database is asked. -/
inductive ChartPlan where
  | transfers (interval : Int)
  | durations (bins : Nat)
  | fileSizes (bins : Nat)
  | replicas
  | traffic
  /-- The numbers that a query finds. -/
  | values (name : String) (query : Sql.ReadQuery) (parameters : List Parameter) (bins : Nat)

/-- The steps to a chart. -/
structure Recipe [Engine] where
  /-- What one row of the database says. -/
  Row : Type
  heading : Chart.Heading
  /-- What there is to say before the rows are read. -/
  announced : List Notice
  /-- The rows, and what there is to say about them. -/
  read : Files → Session → Call (List Row × List Notice)
  /-- What there is to say about what is made of the rows. -/
  remarks : List Row → List Notice
  transform : List Row → Except Failure ChartData
  /-- What a run was about that stops at `transform`. -/
  context : Option String

namespace Recipe

def histogramHeading (name caption unit : String) : Chart.Heading := ⟨name, caption, "Count", unit⟩

def timeHeading (name caption unit : String) : Chart.Heading := ⟨name, caption, unit, "Sim Time"⟩

/-- What is announced before a query of the catalog is read. -/
def loading (catalog : Sql.Catalog) (query : Sql.ChartQuery) : List Notice :=
  ((catalog.path? query).map Notice.loadingQuery).toList

def histogramOf (values : List Float) (bins : Nat) : Except Failure ChartData :=
  orRefuse ((Histogram.ofValues values bins).map ChartData.histogram)

/-- What there is to say about values that have no place in a histogram. -/
def histogramRemarks (values : List Float) : List Notice :=
  if Histogram.skipped values = 0 then [] else [.nonFinite (Histogram.skipped values)]

/-- What there is to say about transfers on a time axis: nothing, if the queued ones have none. -/
def transferRemarks (rows : List TransferTimes) (interval : Int) : List Notice :=
  match Series.ofEvents (Transfers.queuedEvents rows) interval with
  | .error _ => []
  | .ok _ =>
    (if Transfers.neverStarted rows = 0 then []
      else [.neverStarted (Transfers.neverStarted rows)]) ++
    (if (Transfers.startedEvents rows).isEmpty then [.noneStarted] else [])

variable [Engine]

/-- Rows read through a query of the catalog. -/
def fetched {α : Type} (call : Call (List α)) : Call (List α × List Notice) :=
  call.map fun rows => (rows, [.fetched rows.length])

/-- Transfers per bin of time. -/
def transfers (catalog : Sql.Catalog) (interval : Int) : Recipe where
  Row := TransferTimes
  heading := timeHeading Verb.transfers.word "Queued and Started Transfers" "Count"
  announced := loading catalog .transferTimes
  read := fun files session => fetched (session.transferTimes files catalog)
  remarks := fun rows => transferRemarks rows interval
  transform := fun rows =>
    orRefuse ((Transfers.aligned rows interval).map (ChartData.aligned ("queued", "started")))
  context := some "Failed to bin transfers"

def durations (catalog : Sql.Catalog) (bins : Nat) : Recipe where
  Row := TransferTimes
  heading := histogramHeading Verb.durations.word "Transfer Durations" "Duration (s)"
  announced := loading catalog .transferTimes
  read := fun files session => fetched (session.transferTimes files catalog)
  remarks := fun rows =>
    (Transfers.reversed rows).map fun times => .reversedTransfer times.1 times.2
  transform := fun rows => do
    let values ← orBreak (Transfers.durations rows)
    histogramOf values bins
  context := some "Failed to build the transfer duration histogram"

def sizes (rows : List FileSize) : List Float := rows.map fun row => Float.ofInt row.bytes

def fileSizes (catalog : Sql.Catalog) (bins : Nat) : Recipe where
  Row := FileSize
  heading := histogramHeading Verb.fileSizes.word "File Sizes" "File Size (bytes)"
  announced := loading catalog .fileSizes
  read := fun files session => fetched (session.fileSizes files catalog)
  remarks := fun rows => histogramRemarks (sizes rows)
  transform := fun rows => histogramOf (sizes rows) bins
  context := some "Failed to build the file size histogram"

def replicas (catalog : Sql.Catalog) : Recipe where
  Row := ReplicaLifetime
  heading := timeHeading Verb.replicas.word "Replicas per Storage Element" "Replicas"
  announced := loading catalog .replicaLifetimes
  read := fun files session => fetched (session.replicaLifetimes files catalog)
  remarks := fun _ => []
  transform := fun rows =>
    (Replicas.concurrent rows none).map fun groups =>
      .curves (groups.map fun group => (group.1, Curve.ofOverlaps group.2))
  context := some "Failed to count concurrent replicas"

def traffic (catalog : Sql.Catalog) : Recipe where
  Row := TransferTraffic
  heading := timeHeading Verb.traffic.word "Cumulative Traffic per Destination" "Traffic (bytes)"
  announced := loading catalog .transferTraffic
  read := fun files session => fetched (session.transferTraffic files catalog)
  remarks := fun _ => []
  transform := fun rows => .ok (.curves (Curves.traffic rows))
  context := none

/-- Numbers found by a query, and what there is to say about rows without one. -/
def foundValues (call : Call QueryValues) : Call (List Float × List Notice) :=
  call.map fun found =>
    (found.values, if found.skipped = 0 then [] else [.skippedNulls found.skipped])

def values (name : String) (query : Sql.ReadQuery) (parameters : List Parameter) (bins : Nat) :
    Recipe where
  Row := Float
  heading := histogramHeading name name "Value"
  announced := []
  read := fun files session => foundValues (session.queryValues files query parameters)
  remarks := histogramRemarks
  transform := fun rows => histogramOf rows bins
  context := some ("Failed to build a histogram for " ++ name)

def ofPlan (catalog : Sql.Catalog) : ChartPlan → Recipe
  | .transfers interval => transfers catalog interval
  | .durations bins => durations catalog bins
  | .fileSizes bins => fileSizes catalog bins
  | .replicas => replicas catalog
  | .traffic => traffic catalog
  | .values name query parameters bins => values name query parameters bins

end Recipe

/-- The drawing of the data of a chart. Curves are staircases: a value holds until the next one. -/
def sketch (settings : ChartSettings) (heading : Chart.Heading) :
    ChartData → Except NoDataCause Sketch
  | .aligned labels series => Chart.grouped settings heading labels series
  | .histogram data => Chart.histogram settings heading data
  | .curves data => Chart.curves settings heading data true

/-- What there is to say about a drawing: the corners of each curve. -/
def drawingRemarks : ChartData → List Notice
  | .curves data => data.map fun curve => .drawing (Chart.corners true curve.2).length curve.1
  | _ => []

end GridReport.Command
