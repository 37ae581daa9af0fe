import GridReport.ChartSettings
import GridReport.Chart.Drawing

/-!
Drawings put into the file tree.

The directory of a chart is made if it is not there. A drawing that broke off is written as far as
it got, and the run still breaks.
-/

namespace GridReport.Chart

/-- Writes the sketch of a chart and gives its path. -/
def write (files : Files) (settings : ChartSettings) (name : String) (sketch : Sketch) :
    Except Failure String × Files :=
  match files.makeDirectories settings.directory with
  | (.error fault, ready) => (.error (.refused (.file fault)), ready)
  | (.ok (), ready) =>
    let path := settings.pathFor name
    match sketch.broken, ready.writable path with
    | none, .ok place => (.ok path, ready.put place (.drawing sketch.drawing))
    | none, .error fault => (.error (.refused (.drawing fault)), ready)
    | some defect, .ok place => (.error (.broken defect), ready.put place (.drawing sketch.drawing))
    | some defect, .error _ => (.error (.broken defect), ready)

def writeOrRefuse (files : Files) (settings : ChartSettings) (name : String)
    (chart : Except NoDataCause Sketch) : Except Failure String × Files :=
  match chart with
  | .error cause => (.error (.refused (.noData cause)), files)
  | .ok sketch => write files settings name sketch

end GridReport.Chart
