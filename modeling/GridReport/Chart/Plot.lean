import GridReport.ChartSettings
import GridReport.Chart.Frame
import GridReport.Curves
import GridReport.Extremum
import GridReport.Histogram
import GridReport.Series.Align

/-!
The three charts: a histogram, two series side by side, and curves.

A chart without data is refused before anything is drawn. Otherwise there is a sketch: the whole
drawing, or the part of it that was done before a defect broke it off.
-/

namespace GridReport.Chart

/-- The names of a chart: of its file, above it, and beside its axes. -/
structure Heading where
  name : String
  caption : String
  vertical : String
  horizontal : String
deriving Repr, DecidableEq

/-- The top of the vertical axis: five percent above the greatest value, at least one. -/
def headroom (peak : Float) : Float := Extremum.greater (peak * 1.05) 1.0

def captioned (settings : ChartSettings) (heading : Heading) : Drawing :=
  ⟨settings.width, settings.height, [heading.caption], [], []⟩

def framed (settings : ChartSettings) (heading : Heading) : Drawing :=
  ⟨settings.width, settings.height, [heading.caption, heading.vertical, heading.horizontal], [], []⟩

/-- The bars of a histogram: one per count, between neighboring edges. -/
def histogramBars (frame : Frame) : List Float → List Nat → List (Except Defect Bar)
  | low :: high :: edges, count :: counts =>
    frame.bar .blue low high (Float.ofNat count) :: histogramBars frame (high :: edges) counts
  | _, _ => []

/-- The first and the last edge of a histogram that has bins and the right number of edges. -/
def edgeRange? (histogram : Histogram Float) : Option (Float × Float) :=
  if histogram.counts.length + 1 = histogram.edges.length then
    match histogram.edges.head?, histogram.edges.getLast? with
    | some first, some last => some (first, last)
    | _, _ => none
  else none

def histogram (settings : ChartSettings) (heading : Heading) (data : Histogram Float) :
    Except NoDataCause Sketch :=
  match edgeRange? data with
  | none => .error (.noHistogramBins heading.name)
  | some (low, high) =>
    if low.isNaN || high.isNaN then .ok ⟨captioned settings heading, some .unorderedAxis⟩
    else
      let frame : Frame :=
        ⟨settings.width, settings.height, low, high, headroom (Float.ofNat data.maxCount)⟩
      let (bars, broken) := upToDefect (histogramBars frame data.edges data.counts)
      .ok ⟨{ framed settings heading with bars := bars }, broken⟩

def middle (bin : Bin) : Except Defect Float :=
  (Tick.checked (bin.start + bin.finish)).map fun sum => Float.ofInt sum / 2.0

def leftBar (frame : Frame) (bin : Bin) (weight : Float) : Except Defect Bar := do
  let mid ← middle bin
  frame.bar .blue (Float.ofInt bin.start) mid weight

def rightBar (frame : Frame) (bin : Bin) (weight : Float) : Except Defect Bar := do
  let mid ← middle bin
  frame.bar .red mid (Float.ofInt bin.finish) weight

def grouped (settings : ChartSettings) (heading : Heading) (labels : String × String)
    (aligned : AlignedSeries) : Except NoDataCause Sketch :=
  match aligned.axis.getLast? with
  | none => .error (.noSeriesBins heading.name)
  | some final =>
    let right := Float.ofInt final.finish
    match timeAxisDefect? 0.0 right with
    | some defect => .ok ⟨captioned settings heading, some defect⟩
    | none =>
      let peak := Extremum.greatest 0.0 (aligned.first ++ aligned.second)
      let frame : Frame := ⟨settings.width, settings.height, 0.0, right, headroom peak⟩
      let plain := framed settings heading
      let (left, leftBroken) := upToDefect (aligned.axis.zipWith (leftBar frame) aligned.first)
      match leftBroken with
      | some defect => .ok ⟨{ plain with bars := left }, some defect⟩
      | none =>
        let (right, broken) := upToDefect (aligned.axis.zipWith (rightBar frame) aligned.second)
        match broken with
        | some defect => .ok ⟨{ plain with bars := left ++ right }, some defect⟩
        | none =>
          .ok ⟨{ plain with
            texts := plain.texts ++ [labels.1, labels.2], bars := left ++ right }, none⟩

/-- The least and the greatest time of curves that have points. -/
def timeRange? (curves : Curves) : Option (Int × Int) :=
  match curves.flatMap fun curve => curve.2.map (·.1) with
  | [] => none
  | head :: tail => some (tail.foldl min head, tail.foldl max head)

/-- The ends of the time axis; a single time has one unit to the right. -/
def timeAxis (low high : Int) : Float × Float :=
  if low < high then (Float.ofInt low, Float.ofInt high)
  else (Float.ofInt low, Float.ofInt low + 1.0)

/-- The corners of the line of a curve: a staircase, or the points themselves. -/
def corners (staircase : Bool) (curve : Curve) : List (Float × Float) :=
  if staircase then Curve.steps curve else Curve.line curve

/-- The chart of curves. A curve without points has no line, but it takes its color and its place in
the legend. -/
def curves (settings : ChartSettings) (heading : Heading) (data : Curves) (staircase : Bool) :
    Except NoDataCause Sketch :=
  match timeRange? data with
  | none => .error (.noCurvePoints heading.name)
  | some (low, high) =>
    let (left, right) := timeAxis low high
    match timeAxisDefect? left right with
    | some defect => .ok ⟨captioned settings heading, some defect⟩
    | none =>
      let peak := Extremum.greatest 0.0 (data.flatMap fun curve => curve.2.map (·.2))
      let frame : Frame := ⟨settings.width, settings.height, left, right, headroom peak⟩
      let plain := framed settings heading
      let drawn := data.zipIdx.filter fun pair => !pair.1.2.isEmpty
      let (lines, broken) := upToDefect (drawn.map fun pair =>
        frame.line (Color.ofLine pair.2) (corners staircase pair.1.2))
      match broken with
      | some defect => .ok ⟨{ plain with lines := lines }, some defect⟩
      | none =>
        .ok ⟨{ plain with texts := plain.texts ++ data.map (·.1), lines := lines }, none⟩

end GridReport.Chart
