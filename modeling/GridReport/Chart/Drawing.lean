import GridReport.Tick

/-!
Drawings: bars, lines and texts at pixels.
-/

namespace GridReport

/-- A color by its red, green and blue in base sixteen. -/
structure Color where
  hex : String
deriving Repr, DecidableEq

namespace Color

/-- The color of a single or a first series of bars. -/
def blue : Color := ⟨"#0000FF"⟩

/-- The color of a second series of bars. -/
def red : Color := ⟨"#FF0000"⟩

/-- The colors of lines, in the order in which they are used. -/
def palette : List Color :=
  ["#E6194B", "#3CB44B", "#FFE119", "#0082C8", "#F58230", "#911EB4", "#46F0F0", "#F032E6",
    "#D2F53C", "#FABEBE", "#008080", "#E6BEFF", "#AA6E28", "#FFFAC8", "#800000", "#AAFFC3",
    "#808000", "#FFD7B4", "#000080", "#808080", "#000000"].map Color.mk

/-- The color of the line at a position; the palette is used again after its end. -/
def ofLine (index : Nat) : Color := palette.getD (index % palette.length) blue

end Color

/-- A filled rectangle. -/
structure Bar where
  left : Int
  top : Int
  width : Int
  height : Int
  color : Color
deriving Repr, DecidableEq

/-- How much of what lies behind a bar is covered. -/
def Bar.opacity : String := "0.7"

def Bar.between (color : Color) (corner opposite : Int × Int) : Bar :=
  ⟨min corner.1 opposite.1, min corner.2 opposite.2, (opposite.1 - corner.1).natAbs,
    (opposite.2 - corner.2).natAbs, color⟩

structure Line where
  color : Color
  points : List (Int × Int)
deriving Repr, DecidableEq

/-- What a chart shows. -/
structure Drawing where
  width : Nat
  height : Nat
  /-- The caption, the descriptions of the vertical and the horizontal axis, and the legend. -/
  texts : List String
  bars : List Bar
  lines : List Line
deriving Repr, DecidableEq

/-- A drawing as far as it got, and the defect that broke it off, if one did. -/
structure Sketch where
  drawing : Drawing
  broken : Option Defect

def upToDefect {α : Type} : List (Except Defect α) → List α × Option Defect
  | [] => ([], none)
  | .error defect :: _ => ([], some defect)
  | .ok item :: rest =>
    let (items, broken) := upToDefect rest
    (item :: items, broken)

end GridReport
