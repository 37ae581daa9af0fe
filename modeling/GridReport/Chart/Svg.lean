import GridReport.Chart.Drawing

/-!
Drawings as SVG documents.
-/

namespace GridReport.Svg

def escapeChar (c : Char) : String :=
  if c = '&' then "&amp;"
  else if c = '<' then "&lt;"
  else if c = '>' then "&gt;"
  else if c = '\x22' then "&quot;"
  else String.singleton c

/-- Running text. -/
def escape (content : String) : String := String.join (content.toList.map escapeChar)

def property (name value : String) : String := " " ++ name ++ "=\"" ++ escape value ++ "\""

/-- A filled rectangle. -/
def bar (item : Bar) : String :=
  "<rect" ++ property "x" (toString item.left) ++ property "y" (toString item.top) ++
    property "width" (toString item.width) ++ property "height" (toString item.height) ++
    property "opacity" Bar.opacity ++ property "fill" item.color.hex ++
    property "stroke" "none" ++ "/>"

def line (item : Line) : String :=
  let corners := item.points.map fun point => toString point.1 ++ "," ++ toString point.2
  "<polyline" ++ property "fill" "none" ++ property "opacity" "1" ++
    property "stroke" item.color.hex ++ property "stroke-width" "2" ++
    property "points" (String.intercalate " " corners) ++ "/>"

/-- A text on a line of its own, counted from the top. -/
def text (content : String) (index : Nat) : String :=
  "<text" ++ property "x" "20" ++ property "y" (toString (40 + 20 * index)) ++
    property "font-family" "sans-serif" ++ ">" ++ escape content ++ "</text>"

def lines (drawing : Drawing) : List String :=
  ["<svg" ++ property "width" (toString drawing.width) ++
      property "height" (toString drawing.height) ++
      property "viewBox"
        ("0 0 " ++ toString drawing.width ++ " " ++ toString drawing.height) ++ ">"] ++
    drawing.bars.map bar ++ drawing.lines.map line ++
    drawing.texts.zipIdx.map (fun pair => text pair.1 pair.2) ++ ["</svg>", ""]

def render (drawing : Drawing) : String := String.intercalate "\n" (lines drawing)

end GridReport.Svg
