import GridReport.Json.Printer
import GridReport.Summary

/-!
Summaries and reports as documents.

The data of a chart is an object whose field `kind` names what it is. The curves of a chart are
fields of the same object, so a curve of the name `kind` takes the place of the tag.
-/

namespace GridReport.Summary.Document

/-- Where a document says it comes from. -/
structure Origin where
  version : String
  source : String
  generatedAt : String
deriving Repr, DecidableEq

/-- How documents are written: over several lines or on one, and with their origin or without. -/
structure Style where
  pretty : Bool
  origin : Option Origin
deriving Repr, DecidableEq

def ofBin (bin : Bin) : Json :=
  .object [("start", .int bin.start), ("end", .int bin.finish), ("weight", .number bin.weight)]

def ofSeries (series : AlignedSeries) : Json :=
  .object [("interval", .int series.interval), ("axis", .list (series.axis.map ofBin)),
    ("first", .list (series.first.map .number)), ("second", .list (series.second.map .number))]

def ofCurve (curve : Curve) : Json :=
  .list (curve.map fun point => .list [.int point.1, .number point.2])

def kind : ChartData → String
  | .aligned _ _ => "aligned"
  | .histogram _ => "histogram"
  | .curves _ => "curves"

/-- The fields of the data of a chart after its tag. -/
def fields : ChartData → List (String × Json)
  | .aligned labels series =>
    [("labels", .list [.text labels.1, .text labels.2]), ("series", ofSeries series)]
  | .histogram data =>
    [("edges", .list (data.edges.map .number)),
      ("counts", .list (data.counts.map fun (count : Nat) => .int count))]
  | .curves data => data.map fun curve => (curve.1, ofCurve curve.2)

def ofData (data : ChartData) : Json :=
  .object ((fields data).foldl (fun done field => Json.setField field.1 field.2 done)
    [("kind", .text (kind data))])

def ofSummary (summary : Summary) : Json :=
  .object [("plot", .text summary.plot), ("chart_path", .text summary.chartPath),
    ("rows", .int summary.rows), ("data", ofData summary.data)]

def ofReport (report : Sku.MergeReport) : Json :=
  .object [
    ("updated", .list (report.updated.map fun region =>
      .object [("region", .text region.1), ("tiers", .int region.2)])),
    ("without_rates", .list (report.withoutRates.map .text)),
    ("missing_sku", .list (report.missingSku.map .text)),
    ("written", .bool report.written)]

def withOrigin (origin : Origin) (result : Json) : Json :=
  .object [
    ("metadata", .object [("tool", .text "simstats"), ("version", .text origin.version),
      ("source", .text origin.source), ("generated_at", .text origin.generatedAt)]),
    ("result", result)]

def Style.write (style : Style) (document : Json) : String :=
  let whole := (style.origin.map (withOrigin · document)).getD document
  if style.pretty then Json.pretty whole else Json.compact whole

def render (style : Style) (summary : Summary) : String := style.write (ofSummary summary)

def renderReport (style : Style) (report : Sku.MergeReport) : String :=
  style.write (ofReport report)

end GridReport.Summary.Document
