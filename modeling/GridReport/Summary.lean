import GridReport.Curves
import GridReport.Histogram
import GridReport.Series.Align
import GridReport.Sku.Merge

/-!
What a run has to report: the chart it wrote and the data behind it.
-/

namespace GridReport

inductive ChartData where
  /-- Two labeled series on one axis. -/
  | aligned (labels : String × String) (series : AlignedSeries)
  | histogram (data : Histogram Float)
  | curves (data : Curves)

/-- The summary of a run that wrote a chart. -/
structure Summary where
  plot : String
  chartPath : String
  rows : Nat
  data : ChartData

end GridReport
