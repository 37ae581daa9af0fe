import GridReport.Decimal.Layout
import GridReport.Files.Fault
import GridReport.Json.Fault
import GridReport.Sql.Kind
import GridReport.Store.Fault
import GridReport.Tick

/-!
Every error of the program, by cause, and its wording.

The nine kinds are constructors of `Error`; within a kind a cause says what was wrong, and
`Error.message` is the only place that turns a cause into a sentence.
-/

namespace GridReport

/-- A setting or argument that cannot be used. -/
inductive ConfigurationCause where
  /-- A bin interval that is not positive. -/
  | interval (given : Int)
  /-- Two series binned with different intervals. -/
  | intervals (first second : Int)
  /-- A histogram without bins. -/
  | noBins
  /-- A connection file that cannot be read. -/
  | connectionFile (path : String) (fault : FileFault)
  /-- A connection string of white space. -/
  | blankConnection (path : String)
  /-- A chart without pixels. -/
  | chartSize (width height : Nat)
  /-- A connection string that names no file. -/
  | databaseFile (source : String)
  /-- A query directory that is no directory. -/
  | queryDirectory (path : String)
  /-- A placeholder without a value. -/
  | unboundParameter (name : String)
  /-- A value without a placeholder. -/
  | unknownParameter (name : String)
  /-- A document that cannot be read. -/
  | documentFile (path : String) (fault : FileFault)
  /-- A configuration whose regions are no list. -/
  | regionsNotList (path : String)
  /-- An output directory that is a file. -/
  | outputDirectory (path : String)
  /-- An interval argument that is not positive. -/
  | intervalArgument
  /-- A bin count argument of zero. -/
  | binsArgument
  /-- A query argument that names no file. -/
  | queryFile (path : String)
deriving Repr, DecidableEq

def ConfigurationCause.message : ConfigurationCause → String
  | .interval given => "bin interval must be positive, got " ++ toString given
  | .intervals first second =>
    "cannot align series binned with different intervals (" ++ toString first ++ " vs " ++
      toString second ++ ")"
  | .noBins => "histogram needs at least one bin"
  | .connectionFile path fault =>
    "Cannot read connection config " ++ path ++ ": " ++ fault.message
  | .blankConnection path => "Empty connectionStr in " ++ path
  | .chartSize width height =>
    "Chart size must be non-zero, got " ++ toString width ++ "x" ++ toString height
  | .databaseFile source => "Database file does not exist: " ++ source
  | .queryDirectory path => "Query directory does not exist: " ++ path
  | .unboundParameter name => "No value given for query parameter " ++ name
  | .unknownParameter name => "Query has no parameter " ++ name
  | .documentFile path fault => "Cannot read " ++ path ++ ": " ++ fault.message
  | .regionsNotList path => "gcp.regions in " ++ path ++ " is not a list"
  | .outputDirectory path => "Output directory path exists but is not a directory: " ++ path
  | .intervalArgument => "Bin interval must be greater than 0"
  | .binsArgument => "Number of bins must be greater than 0"
  | .queryFile path => "Query file does not exist: " ++ path

def ConfigurationCause.field : ConfigurationCause → String
  | .interval _ => "interval"
  | .intervals _ _ => "interval"
  | .noBins => "bins"
  | .connectionFile _ _ => "db_config"
  | .blankConnection _ => "connectionStr"
  | .chartSize _ _ => "width"
  | .databaseFile _ => "connectionStr"
  | .queryDirectory _ => "queries_dir"
  | .unboundParameter _ => "param"
  | .unknownParameter _ => "param"
  | .documentFile _ _ => "path"
  | .regionsNotList _ => "regions"
  | .outputDirectory _ => "out_dir"
  | .intervalArgument => "interval"
  | .binsArgument => "bins"
  | .queryFile _ => "file"

/-- A query text that is not one read-only query with named placeholders. -/
inductive QueryCause where
  | unparsable (sql : String)
  | noStatement
  | severalStatements (sql : String) (count : Nat)
  | notSelect (sql : String) (kind : Sql.StatementKind)
  | positional (sql : String)
deriving Repr, DecidableEq

def QueryCause.message : QueryCause → String
  | .unparsable _ => "Failed to parse SQL"
  | .noStatement => "query file contains no statement"
  | .severalStatements _ count => "expected a single statement, found " ++ toString count
  | .notSelect _ kind => "only SELECT queries can be evaluated, got " ++ kind.label
  | .positional _ => "positional placeholders are not supported, use :name"

def QueryCause.lineContent : QueryCause → Option String
  | .unparsable sql => some sql
  | .noStatement => none
  | .severalStatements sql _ => some sql
  | .notSelect sql _ => some sql
  | .positional sql => some sql

/-- Nothing to work on. -/
inductive NoDataCause where
  | noEvents
  | noValues
  | noHistogramBins (name : String)
  | noSeriesBins (name : String)
  | noCurvePoints (name : String)
deriving Repr, DecidableEq

def NoDataCause.message : NoDataCause → String
  | .noEvents => "cannot bin an empty event sequence"
  | .noValues => "no values to build a histogram from"
  | .noHistogramBins name => "histogram for " ++ name ++ " has no bins"
  | .noSeriesBins name => "no bins to draw for " ++ name
  | .noCurvePoints name => "no points to draw for " ++ name

/-- Data that cannot be worked on. -/
inductive InputCause where
  /-- The last timestamp has no successor. -/
  | noFinalBin (timestamp : Int)
  | negativeTimestamp (timestamp : Int)
  | unsorted (timestamp previous : Int)
  | reversedInterval (start finish : Int)
  /-- The values spread over more than the largest double. -/
  | wideRange (low high : Float)

def InputCause.message : InputCause → String
  | .noFinalBin timestamp =>
    "timestamp " ++ toString timestamp ++ " leaves no room for a final bin"
  | .negativeTimestamp timestamp => "negative event timestamp " ++ toString timestamp
  | .unsorted timestamp previous =>
    "events are not sorted: " ++ toString timestamp ++ " follows " ++ toString previous
  | .reversedInterval start finish =>
    "interval ends before it starts: [" ++ toString start ++ ", " ++ toString finish ++ "]"
  | .wideRange low high =>
    "value range [" ++ Decimal.plain.render low ++ ", " ++ Decimal.plain.render high ++
      "] is too wide to bin"

/-- A catalog or a region list that does not fit. -/
inductive PricingCause where
  | skuWithoutId
  | duplicateSku (id : String)
  | regionWithoutSku (name : String)
  /-- A SKU whose pricing entries are not exactly one. -/
  | pricingEntries (id : String) (count : Nat)
deriving Repr, DecidableEq

def PricingCause.message : PricingCause → String
  | .skuWithoutId => "SKU object without a skuId"
  | .duplicateSku id => "Duplicate skuId " ++ id
  | .regionWithoutSku name => "Region " ++ name ++ " has no skuId"
  | .pricingEntries id count =>
    "SKU " ++ id ++ " has " ++ toString count ++ " pricingInfo entries, expected exactly one"

inductive Error where
  | file (fault : FileFault)
  | database (fault : Store.Fault)
  | document (fault : Json.Fault)
  | configuration (cause : ConfigurationCause)
  | query (cause : QueryCause)
  | noData (cause : NoDataCause)
  | invalidInput (cause : InputCause)
  | pricing (cause : PricingCause)
  | drawing (fault : FileFault)

/-- The sentence for an error, with its kind in front. -/
def Error.message : Error → String
  | .file fault => "I/O error: " ++ fault.message
  | .database fault => "database error: " ++ fault.message
  | .document fault => "serialization error: " ++ fault.message
  | .configuration cause => "configuration error: " ++ cause.message
  | .query cause => "parse error: " ++ cause.message
  | .noData cause => "no data: " ++ cause.message
  | .invalidInput cause => "invalid input: " ++ cause.message
  | .pricing cause => "pricing error: " ++ cause.message
  | .drawing fault => "render error: backend error: Drawing backend error: " ++ fault.message

/-- The error and the causes below it, outermost first. -/
def Error.chain (error : Error) : List String :=
  match error with
  | .file fault => [error.message, fault.message]
  | .database fault =>
    [error.message, fault.message] ++ (fault.code.map Store.EngineCode.message).toList
  | .document fault => [error.message, fault.message]
  | _ => [error.message]

/-- How an operation ends that has no result. -/
inductive Failure where
  /-- An error that is reported. -/
  | refused (error : Error)
  /-- A stop without a report. -/
  | broken (defect : Defect)

def orRefuse {α : Type} : Except Error α → Except Failure α
  | .ok a => .ok a
  | .error e => .error (.refused e)

def orBreak {α : Type} : Except Defect α → Except Failure α
  | .ok a => .ok a
  | .error d => .error (.broken d)

end GridReport
