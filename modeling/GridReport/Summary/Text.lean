import GridReport.Decimal.Places
import GridReport.Extremum
import GridReport.SimTime
import GridReport.Summary

/-!
Summaries and reports as running text, a line for each fact.
-/

namespace GridReport.Summary.Text

def number (value : Float) : String := Decimal.plain.render value

/-- A number with two decimal places. -/
def rounded (value : Float) : String := Decimal.fixed 2 value

def joinLines (lines : List String) : String := String.join (lines.map (· ++ "\n"))

def entry {α : Type} (items : List α) (index : Nat) : Except Defect α :=
  match items[index]? with
  | some item => .ok item
  | none => .error .missingEntry

/-- The sum of weights, and where the greatest one is. -/
def weightLines (axis : List Bin) (label : String) (weights : List Float) :
    Except Defect (List String) := do
  let total := "Total " ++ label ++ ": " ++ number (weights.foldl (· + ·) (-0.0))
  match Extremum.lastPeak Extremum.rank weights with
  | none => return [total]
  | some (index, weight) =>
    let bin ← entry axis index
    let time ← SimTime.render bin.start
    return [total, "Peak " ++ label ++ ": " ++ number weight ++ " at " ++ time]

def alignedLines (labels : String × String) (series : AlignedSeries) :
    Except Defect (List String) := do
  let first ← weightLines series.axis labels.1 series.first
  let second ← weightLines series.axis labels.2 series.second
  return ["Bin Interval: " ++ toString series.interval ++ " s",
    "Bins: " ++ toString series.size] ++ first ++ second

def rangeLines (edges : List Float) : List String :=
  match edges.head?, edges.getLast? with
  | some first, some last => ["Range: " ++ rounded first ++ " .. " ++ rounded last]
  | _, _ => []

def fullestLines (histogram : Histogram Float) : Except Defect (List String) :=
  match Extremum.lastPeak Int.ofNat histogram.counts with
  | none => .ok []
  | some (index, count) => do
    let low ← entry histogram.edges index
    let high ← entry histogram.edges (index + 1)
    return ["Largest Bin: " ++ toString count ++ " values in [" ++ rounded low ++ ", " ++
      rounded high ++ ")"]

def histogramLines (histogram : Histogram Float) : Except Defect (List String) := do
  let total ← histogram.total
  let fullest ← fullestLines histogram
  return ["Bins: " ++ toString histogram.counts.length, "Values: " ++ toString total] ++
    rangeLines histogram.edges ++ fullest

/-- What is no number, before any value has been seen. -/
def unseen : Float := 0.0 / 0.0

def curveLine (curve : String × Curve) : String :=
  let values := curve.2.map (·.2)
  "  " ++ curve.1 ++ ": points=" ++ toString curve.2.length ++ ", last=" ++
    number (values.getLast?.getD 0.0) ++ ", peak=" ++
    number (Extremum.greatest unseen values)

def curvesLines (curves : Curves) : List String :=
  ("Series: " ++ toString curves.length) :: curves.map curveLine

def dataLines : ChartData → Except Defect (List String)
  | .aligned labels series => alignedLines labels series
  | .histogram data => histogramLines data
  | .curves data => .ok (curvesLines data)

def render (summary : Summary) : Except Defect String := do
  let title := summary.plot ++ " report"
  let facts ← dataLines summary.data
  return joinLines ([title, String.ofList (List.replicate title.utf8ByteSize '='),
    "Chart: " ++ summary.chartPath, "Rows: " ++ toString summary.rows] ++ facts)

def renderReport (report : Sku.MergeReport) : String :=
  joinLines (["SKU Merge Report", "================"] ++
    report.updated.map (fun region =>
      "Updated " ++ region.1 ++ " (" ++ toString region.2 ++ " tiers)") ++
    report.withoutRates.map ("Failed to update " ++ ·) ++
    report.missingSku.map ("Missing pricing data for " ++ ·) ++
    [if report.written then "Output written" else "No output written"])

end GridReport.Summary.Text
