import GridReport.Chart.Drawing
import GridReport.SimTime

/-!
The frame of a chart: how values become pixels, and where the time axis has its ticks.

Around the plotting area of an image of `W` by `H` pixels lie a margin, the caption and the labels
of the axes. Values run from left to right and from bottom to top; they are rounded away from the
end of the axis, with a thousandth of a pixel of slack.
-/

namespace GridReport.Chart

/-- The largest integer that is not above a double; zero for what is no number. -/
def floorInt (x : Float) : Int :=
  let n := x.toInt64.toInt
  if x < Float.ofInt n then n - 1 else n

/-- The least integer that is not below a double; zero for what is no number. -/
def ceilInt (x : Float) : Int :=
  let n := x.toInt64.toInt
  if Float.ofInt n < x then n + 1 else n

/-- The greatest pixel coordinate; they have 32 bits. -/
def greatestPixel : Int := 2147483647

def leastPixel : Int := -2147483648

def clampPixel (n : Int) : Int := max leastPixel (min greatestPixel n)

def addPixels (a b : Int) : Except Defect Int :=
  if leastPixel ≤ a + b && a + b ≤ greatestPixel then .ok (a + b) else .error .overflow

/-- An axis: the values at its ends, the pixel of the first and the pixels to the second. -/
structure Axis where
  low : Float
  high : Float
  origin : Int
  extent : Int

/-- The pixel of a value. An axis whose ends are equal has all values at one place. -/
def Axis.pixel (axis : Axis) (value : Float) : Except Defect Int :=
  if axis.high == axis.low then .ok (axis.extent.tdiv 2)
  else
    let part := (value - axis.low) / (axis.high - axis.low)
    if axis.extent = 0 then .ok axis.origin
    else if part.isInf then
      .ok (if 0.0 < part then axis.origin + axis.extent else axis.origin)
    else if 0 < axis.extent then
      addPixels axis.origin (clampPixel (floorInt (Float.ofInt axis.extent * part + 0.001)))
    else
      addPixels axis.origin (clampPixel (ceilInt (Float.ofInt axis.extent * part - 0.001)))

/-- The image and the ranges of values that it shows. Vertical values start at zero. -/
structure Frame where
  width : Nat
  height : Nat
  left : Float
  right : Float
  top : Float

namespace Frame

def across (frame : Frame) : Axis := ⟨frame.left, frame.right, 110, (frame.width : Int) - 131⟩

def upward (frame : Frame) : Axis := ⟨0.0, frame.top, (frame.height : Int) - 81, 137 - frame.height⟩

/-- The pixel of a point, kept inside the plotting area. -/
def point (frame : Frame) (x y : Float) : Except Defect (Int × Int) := do
  let column ← frame.across.pixel x
  let row ← frame.upward.pixel y
  return (max 110 (min ((frame.width : Int) - 20) column),
    max 56 (min ((frame.height : Int) - 80) row))

def bar (frame : Frame) (color : Color) (start finish value : Float) : Except Defect Bar := do
  let corner ← frame.point start 0.0
  let opposite ← frame.point finish value
  return Bar.between color corner opposite

def line (frame : Frame) (color : Color) (points : List (Float × Float)) : Except Defect Line := do
  return ⟨color, ← points.mapM fun p => frame.point p.1 p.2⟩

end Frame

def mostTicks : Int := 11

/-- The last multiple of a step that is not past the end. -/
def lastTick (high step : Int) : Int := high.fdiv step * step

/-- The first multiple of a step that is not before the start. -/
def firstTick (low step : Int) : Int := -((-low).fdiv step * step)

def tickCount (low high step : Int) : Int :=
  high.fdiv step + (-low).fdiv step + 1

/-- Halves, fifths and tenths of a power of ten, then of the next smaller one, while there are not
too many ticks; a step is at least one. -/
def refineStep (low high : Int) (step : Int) : Nat → Int
  | 0 => step
  | exponent + 1 =>
    let unit : Int := Nat.pow 10 (exponent + 1)
    if mostTicks < tickCount low high (unit / 2) then step
    else if mostTicks < tickCount low high (unit / 5) then unit / 2
    else if mostTicks < tickCount low high (unit / 10) then unit / 5
    else refineStep low high (unit / 10) exponent

def exponentOf (width : Nat) : Nat := (Nat.toDigits 10 width).length - 1

def tickEnds (low high : Int) : Option (Int × Int) :=
  if low = high then some (low, low)
  else
    let exponent := exponentOf (high - low).toNat
    let step := refineStep low high (Nat.pow 10 exponent) exponent
    if firstTick low step ≤ lastTick high step then
      some (firstTick low step, lastTick high step)
    else none

def timeAxisDefect? (low high : Float) : Option Defect :=
  match tickEnds low.toInt64.toInt high.toInt64.toInt with
  | none => none
  | some (first, last) =>
    match SimTime.render first, SimTime.render last with
    | .error defect, _ => some defect
    | _, .error defect => some defect
    | .ok _, .ok _ => none

end GridReport.Chart
