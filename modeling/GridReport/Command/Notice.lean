/-!
Notices: what a run says about its work while it goes on.

A notice has a level and an origin; which levels are shown is chosen from outside. Its wording is
found in one place, `Notice.text`.
-/

namespace GridReport.Command

/-- How much a notice matters. -/
inductive Level where
  | error
  | warning
  | info
  | debug
deriving Repr, DecidableEq

namespace Level

/-- The place of a level in the order, the weightiest first. -/
def rank : Level → Nat
  | .error => 0
  | .warning => 1
  | .info => 2
  | .debug => 3

/-- The word for a level, five letters wide. -/
def label : Level → String
  | .error => "ERROR"
  | .warning => "WARN "
  | .info => "INFO "
  | .debug => "DEBUG"

def ofWord? : String → Option Level
  | "error" => some .error
  | "warn" => some .warning
  | "info" => some .info
  | "debug" => some .debug
  | _ => none

/-- Notices of the level are shown if `chosen` is the least weighty level to be shown. -/
def isShown (chosen level : Level) : Bool := level.rank ≤ chosen.rank

end Level

/-- The part of the program that a notice comes from. -/
inductive Origin where
  | run
  | database
  | catalog
  | statistics
  | chart
  | pricing
deriving Repr, DecidableEq

def Origin.label : Origin → String
  | .run => "simstats"
  | .database => "simstats::db"
  | .catalog => "simstats::sql::catalog"
  | .statistics => "simstats::analytics::reshape"
  | .chart => "simstats::output::chart"
  | .pricing => "simstats::pricing"

/-- A part of a run whose time is taken. -/
inductive Stage where
  | query
  | transform
  | render
deriving Repr, DecidableEq

def Stage.label : Stage → String
  | .query => "query"
  | .transform => "transform"
  | .render => "render"

/-- What there is to say. -/
inductive Notice where
  | connected (source : String)
  | running (query : String) (parameters : Nat)
  | loadingQuery (path : String)
  | fetched (rows : Nat)
  | skippedNulls (rows : Nat)
  /-- A stage is over; it took so many seconds. -/
  | took (stage : Stage) (seconds : String)
  | neverStarted (transfers : Nat)
  | noneStarted
  /-- A transfer that finished before it started. -/
  | reversedTransfer (finish start : Int)
  | nonFinite (values : Nat)
  | rendering (path : String)
  | drawing (corners : Nat) (curve : String)
  | closing (source : String)
  | resultsWritten (path : String)
  | noSkus
  | noRegions (path : String)
  | regionUpdated (name : String)
  | regionWithoutRates (name : String)
  | regionWithoutSku (id name : String)
  | documentWritten (path : String)
deriving Repr, DecidableEq

namespace Notice

def level : Notice → Level
  | .connected _ | .took _ _ | .resultsWritten _ | .regionUpdated _ | .documentWritten _ => .info
  | .running _ _ | .loadingQuery _ | .fetched _ | .neverStarted _ | .rendering _ | .drawing _ _
  | .closing _ => .debug
  | .skippedNulls _ | .noneStarted | .reversedTransfer _ _ | .nonFinite _ | .noSkus
  | .noRegions _ | .regionWithoutRates _ | .regionWithoutSku _ _ => .warning

def origin : Notice → Origin
  | .running _ _ | .took _ _ | .noneStarted | .resultsWritten _ => .run
  | .connected _ | .fetched _ | .skippedNulls _ | .closing _ => .database
  | .loadingQuery _ => .catalog
  | .neverStarted _ | .reversedTransfer _ _ | .nonFinite _ => .statistics
  | .rendering _ | .drawing _ _ => .chart
  | .noSkus | .noRegions _ | .regionUpdated _ | .regionWithoutRates _ | .regionWithoutSku _ _
  | .documentWritten _ => .pricing

def text : Notice → String
  | .connected source => "Connected to " ++ source
  | .running query parameters =>
    "Running " ++ query ++ " with " ++ toString parameters ++ " parameters"
  | .loadingQuery path => "Loading query from " ++ path
  | .fetched rows => "Fetched " ++ toString rows ++ " rows"
  | .skippedNulls rows => "Skipped " ++ toString rows ++ " NULL values"
  | .took stage seconds => stage.label ++ " took: " ++ seconds ++ "s"
  | .neverStarted transfers => toString transfers ++ " transfers never started"
  | .noneStarted => "No transfer has started yet"
  | .reversedTransfer finish start =>
    "Skipping transfer finishing before it started (" ++ toString finish ++ " < " ++
      toString start ++ ")"
  | .nonFinite values => "Skipping " ++ toString values ++ " non-finite values"
  | .rendering path => "Rendering " ++ path
  | .drawing corners curve => "Drawing " ++ toString corners ++ " points for " ++ curve
  | .closing source => "Closing " ++ source
  | .resultsWritten path => "Results written to " ++ path
  | .noSkus => "No skus found in catalog"
  | .noRegions path => "No regions found in " ++ path
  | .regionUpdated name => "Updated " ++ name
  | .regionWithoutRates name => "Failed to update " ++ name
  | .regionWithoutSku id name => "No pricing data for SKU " ++ id ++ " of region " ++ name
  | .documentWritten path => "Wrote " ++ path

def line (notice : Notice) : String :=
  "[" ++ notice.level.label ++ " " ++ notice.origin.label ++ "] " ++ notice.text

def lines (chosen : Level) (notices : List Notice) : List String :=
  (notices.filter fun notice => chosen.isShown notice.level).map line

end Notice

end GridReport.Command
