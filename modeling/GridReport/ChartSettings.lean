import GridReport.Error
import GridReport.Files

/-!
Where charts are written and how large they are.
-/

namespace GridReport

/-- The directory and the size of charts, in pixels. -/
structure ChartSettings where
  directory : String
  width : Nat
  height : Nat
deriving Repr, DecidableEq

namespace ChartSettings

/-- The width of a chart if none is given. -/
def defaultWidth : Nat := 1920

/-- The height of a chart if none is given. -/
def defaultHeight : Nat := 1080

/-- Charts of the usual size in the working directory. -/
def usual : ChartSettings := ⟨".", defaultWidth, defaultHeight⟩

def make (directory : String) (width height : Nat) : Except Error ChartSettings :=
  if width = 0 || height = 0 then .error (.configuration (.chartSize width height))
  else .ok ⟨directory, width, height⟩

def pathFor (settings : ChartSettings) (name : String) : String :=
  Files.join settings.directory (name ++ ".svg")

end ChartSettings

end GridReport
