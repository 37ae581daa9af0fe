import GridReport.Chart.Write
import GridReport.Command.Recipe
import GridReport.Sku.Update
import GridReport.Summary.Document
import GridReport.Summary.Text

/-!
A run of the program: from a command line and files to printed text, notices, changed files and an
exit code.

A run first reads and computes everything; files are changed by `render`, by `updateSku` and by
`deliver`, and by nothing else but the database engine, when it is asked in `readRows`.
-/

namespace GridReport.Command

def version : String := "0.1.0"

/-- Refuses arguments that no run can work with: the output directory first, then what belongs to
the task. -/
def checkArguments (files : Files) (arguments : Arguments) : Except ConfigurationCause Unit :=
  if files.pathExists arguments.outDir && !files.isDirectory arguments.outDir then
    .error (.outputDirectory arguments.outDir)
  else
    match arguments.task with
    | .draw (.transfers interval) => if interval ≤ 0 then .error .intervalArgument else .ok ()
    | .draw (.durations bins) => if bins = 0 then .error .binsArgument else .ok ()
    | .draw (.fileSizes bins) => if bins = 0 then .error .binsArgument else .ok ()
    | .draw (.query file _ bins) =>
      if bins = 0 then .error .binsArgument
      else if files.isFile file then .ok ()
      else .error (.queryFile file)
    | .draw .replicas => .ok ()
    | .draw .traffic => .ok ()
    | .updateSku _ _ _ => .ok ()

open ActIn

variable {m : Type → Type} [Monad m]

/-- Loads the query of a chart, if it has one of its own. -/
def plan : ChartTask → ActIn m ChartPlan
  | .transfers interval => return .transfers interval
  | .durations bins => return .durations bins
  | .fileSizes bins => return .fileSizes bins
  | .replicas => return .replicas
  | .traffic => return .traffic
  | task@(.query file parameters bins) => do
    let query ← within ("Failed to load query from " ++ file)
      (orReport (Sql.ReadQuery.ofFile (← files) file))
    let name := task.name
    say (.running name parameters.length)
    return .values name query parameters bins

def readRows [Engine] (recipe : Recipe) (session : Session) : Act (List recipe.Row) := do
  sayAll recipe.announced
  let (rows, remarks) ← alter fun files =>
    let call := recipe.read files session
    (call.answer.mapError .refused, call.files)
  sayAll remarks
  return rows

def makeData [Engine] (recipe : Recipe) (rows : List recipe.Row) : Act ChartData := do
  sayAll (recipe.remarks rows)
  orStop (recipe.transform rows)

/-- What there is to say about a chart that is about to be written: nothing, if there is no chart or
no place for it. -/
def announceChart (files : Files) (settings : ChartSettings) (heading : Chart.Heading)
    (data : ChartData) : List Notice :=
  match sketch settings heading data, (files.makeDirectories settings.directory).1 with
  | .ok _, .ok _ => .rendering (settings.pathFor heading.name) :: drawingRemarks data
  | _, _ => []

def render (settings : ChartSettings) (heading : Chart.Heading) (data : ChartData) :
    Act String := do
  sayAll (announceChart (← files) settings heading data)
  alter fun files =>
    let (result, after) :=
      Chart.writeOrRefuse files settings heading.name (sketch settings heading data)
    (result.mapError .ofFailure, after)

/-- Adds what an act is about, if there is something to add. -/
def withinIf {α : Type} (context : Option String) (act : ActIn m α) : ActIn m α :=
  match context with
  | none => act
  | some context => within context act

def follow [Engine] (clock : Clock m) (settings : ChartSettings) (session : Session)
    (recipe : Recipe) : ActIn m Summary := do
  let rows ← timed clock .query (readRows recipe session)
  let data ← withinIf recipe.context (timed clock .transform (makeData recipe rows))
  let path ← timed clock .render (render settings recipe.heading data)
  return ⟨recipe.heading.name, path, rows.length, data⟩

def draw [Engine] (clock : Clock m) (arguments : Arguments) (task : ChartTask) :
    ActIn m Summary := do
  let before ← files
  let connection ← orReport (Connection.load before arguments.dbConfig)
  let catalog ← orReport (Sql.Catalog.make before arguments.queriesDir)
  let settings ← orReport (ChartSettings.make arguments.outDir arguments.width arguments.height)
  let session ← within ("Failed to open " ++ connection.target)
    (orReport (Session.connect before connection))
  say (.connected session.source)
  let chart ← plan task
  let summary ← follow clock settings session (Recipe.ofPlan catalog chart)
  say (.closing session.source)
  return summary

def noticeOf (config : String) : Sku.Remark → Notice
  | .noSkus => .noSkus
  | .noRegions => .noRegions config
  | .outcome (.updated name _) => .regionUpdated name
  | .outcome (.withoutRates name) => .regionWithoutRates name
  | .outcome (.missingSku name id) => .regionWithoutSku id name

def updateSku (config skus output : String) : ActIn m Sku.MergeReport :=
  within ("Failed to update " ++ config) do
    sayAll ((Sku.remarks (← files) config skus).map (noticeOf config))
    let report ← alter fun files =>
      let (result, after) := Sku.update files config skus output
      (result.mapError .refused, after)
    if report.written then say (.documentWritten output)
    return report

def summaryText (clock : Clock m) (arguments : Arguments) (summary : Summary) : ActIn m String :=
  match arguments.format with
  | .text => orStop (orBreak (Summary.Text.render summary))
  | .json => do
    let now ← clock.now
    return Summary.Document.render ⟨true, some ⟨version, arguments.dbConfig, now⟩⟩ summary

def reportText (arguments : Arguments) (report : Sku.MergeReport) : String :=
  match arguments.format with
  | .text => Summary.Text.renderReport report
  | .json => Summary.Document.renderReport ⟨true, none⟩ report

/-- The file for the text of a run, unless it is to be printed. -/
def Arguments.target? (arguments : Arguments) : Option String :=
  arguments.outfile.filter fun path => path != "-"

/-- Prints the text of a run or writes it to a file. -/
def deliver (arguments : Arguments) (text : String) : ActIn m Unit :=
  match arguments.target? with
  | none => print (text ++ "\n")
  | some path => do
    within ("Failed to write " ++ path) (alter fun files =>
      match files.writeText path text with
      | .ok after => (.ok (), after)
      | .error fault => (.error (.unwritten fault), files))
    say (.resultsWritten path)

/-- The acts of a run. -/
def perform [Engine] (clock : Clock m) (arguments : Arguments) : ActIn m Unit := do
  orReport ((checkArguments (← files) arguments).mapError .configuration)
  match arguments.task with
  | .draw task => do
    let summary ← draw clock arguments task
    deliver arguments (← summaryText clock arguments summary)
  | .updateSku config skus output => do
    let report ← updateSku config skus output
    deliver arguments (reportText arguments report)

end GridReport.Command
