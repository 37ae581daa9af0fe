import GridReport.Command.Outcome
import GridReport.Command.Reach
import GridReport.Proofs.Acts
import GridReport.Proofs.Calls
import GridReport.Proofs.ConfigUpdate
import GridReport.Session

/-!
What a run leaves of the files.

Everything that can go wrong before a chart is drawn, a chart without data included, comes in front
of the first change that a run makes: the directories of the chart are made, then its file is
written, then the text of the run. What the database engine does to the files while it is asked is
its own: the run goes on from the files that the engine has left.

* `Undrawn`, `Opened`, `Drawn` — the stages of a plot run up to its chart.
* `ends_plan`, `ends_readRows`, `ends_makeData`, `ends_render`, `ends_updateSku` — how each act
  ends, in terms of what it works out.
* `changesOnly_write`, `changesOnly_update` — the frames of a chart and of an update.
* `run_changes` — the frame of every run, and the runs that change nothing.
* `run_makes_directory` — a run that succeeds may make a directory.
-/

namespace GridReport.Command

/-! ### What a chart needs before it is drawn -/

/-- The plan of a task, its query read from the files. -/
def planned (files : Files) : ChartTask → Except Stop ChartPlan
  | .transfers interval => .ok (.transfers interval)
  | .durations bins => .ok (.durations bins)
  | .fileSizes bins => .ok (.fileSizes bins)
  | .replicas => .ok .replicas
  | .traffic => .ok .traffic
  | .query file parameters bins =>
    match Sql.ReadQuery.ofFile files file with
    | .ok query => .ok (.values (ChartTask.query file parameters bins).name query parameters bins)
    | .error error => .error ⟨["Failed to load query from " ++ file], .refused error⟩

section Charts

variable [Engine]

/-- A plot run comes to its query with this recipe. -/
structure Opened (files : Files) (arguments : Arguments) (task : ChartTask)
    (settings : ChartSettings) (session : Session) (recipe : Recipe) : Prop where
  accepted : checkArguments files arguments = .ok ()
  settled : ChartSettings.make arguments.outDir arguments.width arguments.height = .ok settings
  connected : ∃ connection, Connection.load files arguments.dbConfig = .ok connection ∧
    Session.connect files connection = .ok session
  follows : ∃ catalog chart, Sql.Catalog.make files arguments.queriesDir = .ok catalog ∧
    planned files task = .ok chart ∧ recipe = .ofPlan catalog chart

/-- Why a plot run stops before its chart is drawn, stage by stage, and the files that are left: as
they were, or as the engine has left them once it was asked. -/
inductive Undrawn (files : Files) (arguments : Arguments) (task : ChartTask) :
    Stop → Files → Prop where
  | arguments {cause : ConfigurationCause}
      (refused : checkArguments files arguments = .error cause) :
      Undrawn files arguments task ⟨[], .refused (.configuration cause)⟩ files
  | connection {error : Error} (accepted : checkArguments files arguments = .ok ())
      (refused : Connection.load files arguments.dbConfig = .error error) :
      Undrawn files arguments task ⟨[], .refused error⟩ files
  | catalog {error : Error} {connection : Connection}
      (accepted : checkArguments files arguments = .ok ())
      (loaded : Connection.load files arguments.dbConfig = .ok connection)
      (refused : Sql.Catalog.make files arguments.queriesDir = .error error) :
      Undrawn files arguments task ⟨[], .refused error⟩ files
  | settings {error : Error} {connection : Connection} {catalog : Sql.Catalog}
      (accepted : checkArguments files arguments = .ok ())
      (loaded : Connection.load files arguments.dbConfig = .ok connection)
      (listed : Sql.Catalog.make files arguments.queriesDir = .ok catalog)
      (refused : ChartSettings.make arguments.outDir arguments.width arguments.height =
        .error error) :
      Undrawn files arguments task ⟨[], .refused error⟩ files
  | database {error : Error} {connection : Connection} {catalog : Sql.Catalog}
      {settings : ChartSettings} (accepted : checkArguments files arguments = .ok ())
      (loaded : Connection.load files arguments.dbConfig = .ok connection)
      (listed : Sql.Catalog.make files arguments.queriesDir = .ok catalog)
      (settled : ChartSettings.make arguments.outDir arguments.width arguments.height =
        .ok settings)
      (refused : Session.connect files connection = .error error) :
      Undrawn files arguments task ⟨["Failed to open " ++ connection.target], .refused error⟩ files
  | query {stop : Stop} {connection : Connection} {catalog : Sql.Catalog}
      {settings : ChartSettings} {session : Session}
      (accepted : checkArguments files arguments = .ok ())
      (loaded : Connection.load files arguments.dbConfig = .ok connection)
      (listed : Sql.Catalog.make files arguments.queriesDir = .ok catalog)
      (settled : ChartSettings.make arguments.outDir arguments.width arguments.height =
        .ok settings)
      (connected : Session.connect files connection = .ok session)
      (refused : planned files task = .error stop) : Undrawn files arguments task stop files
  | rows {error : Error} {settings : ChartSettings} {session : Session} {recipe : Recipe}
      (opened : Opened files arguments task settings session recipe)
      (refused : (recipe.read files session).answer = .error error) :
      Undrawn files arguments task ⟨[], .refused error⟩ (recipe.read files session).files
  | transform {failure : Failure} {settings : ChartSettings} {session : Session} {recipe : Recipe}
      {rows : List recipe.Row} {remarks : List Notice}
      (opened : Opened files arguments task settings session recipe)
      (read : (recipe.read files session).answer = .ok (rows, remarks))
      (refused : recipe.transform rows = .error failure) :
      Undrawn files arguments task ⟨recipe.context.toList, .ofFailure failure⟩
        (recipe.read files session).files
  | noData {cause : NoDataCause} {settings : ChartSettings} {session : Session} {recipe : Recipe}
      {rows : List recipe.Row} {remarks : List Notice} {data : ChartData}
      (opened : Opened files arguments task settings session recipe)
      (read : (recipe.read files session).answer = .ok (rows, remarks))
      (made : recipe.transform rows = .ok data)
      (refused : sketch settings recipe.heading data = .error cause) :
      Undrawn files arguments task ⟨[], .refused (.noData cause)⟩ (recipe.read files session).files

theorem Undrawn.accepted_or {files left : Files} {arguments : Arguments} {task : ChartTask}
    {stop : Stop} (undrawn : Undrawn files arguments task stop left) :
    checkArguments files arguments = .ok () ∨
      ∃ cause, checkArguments files arguments = .error cause ∧
        stop = ⟨[], .refused (.configuration cause)⟩ ∧ left = files := by
  cases undrawn with
  | arguments refused => exact .inr ⟨_, refused, rfl, rfl⟩
  | connection accepted | catalog accepted | settings accepted | database accepted
  | query accepted => exact .inl accepted
  | rows opened | transform opened | noData opened => exact .inl opened.accepted

/-- A plot run comes to the chart of this data. -/
structure Drawn (files : Files) (arguments : Arguments) (task : ChartTask)
    (settings : ChartSettings) (session : Session) (recipe : Recipe) (rows : List recipe.Row)
    (data : ChartData) (chart : Sketch) : Prop where
  opened : Opened files arguments task settings session recipe
  read : ∃ remarks, (recipe.read files session).answer = .ok (rows, remarks)
  made : recipe.transform rows = .ok data
  drawn : sketch settings recipe.heading data = .ok chart

/-- A plot run stops at a stage in front of its chart or comes to its query. -/
theorem undrawn_or_opened (files : Files) (arguments : Arguments) (task : ChartTask) :
    (∃ stop, Undrawn files arguments task stop files) ∨
      ∃ settings session recipe, Opened files arguments task settings session recipe := by
  cases accepted : checkArguments files arguments with
  | error cause => exact .inl ⟨_, .arguments accepted⟩
  | ok _ =>
      cases loaded : Connection.load files arguments.dbConfig with
      | error error => exact .inl ⟨_, .connection accepted loaded⟩
      | ok connection =>
          cases listed : Sql.Catalog.make files arguments.queriesDir with
          | error error => exact .inl ⟨_, .catalog accepted loaded listed⟩
          | ok catalog =>
              cases settled : ChartSettings.make arguments.outDir arguments.width
                  arguments.height with
              | error error => exact .inl ⟨_, .settings accepted loaded listed settled⟩
              | ok settings =>
                  cases connected : Session.connect files connection with
                  | error error =>
                      exact .inl ⟨_, .database accepted loaded listed settled connected⟩
                  | ok session =>
                      cases plan : planned files task with
                      | error stop =>
                          exact .inl ⟨stop, .query accepted loaded listed settled connected plan⟩
                      | ok chart =>
                          exact .inr ⟨settings, session, _, accepted, settled,
                            ⟨connection, loaded, connected⟩, catalog, chart, listed, plan, rfl⟩

/-- A run that has come to its query stops at a stage in front of its chart or comes to it. -/
theorem Opened.undrawn_or_drawn {files : Files} {arguments : Arguments} {task : ChartTask}
    {settings : ChartSettings} {session : Session} {recipe : Recipe}
    (opened : Opened files arguments task settings session recipe) :
    (∃ stop, Undrawn files arguments task stop (recipe.read files session).files) ∨
      ∃ rows data chart, Drawn files arguments task settings session recipe rows data chart := by
  cases read : (recipe.read files session).answer with
  | error error => exact .inl ⟨_, .rows opened read⟩
  | ok found =>
      obtain ⟨rows, remarks⟩ := found
      cases made : recipe.transform rows with
      | error failure => exact .inl ⟨_, .transform opened read made⟩
      | ok data =>
          cases drawn : sketch settings recipe.heading data with
          | error cause => exact .inl ⟨_, .noData opened read made drawn⟩
          | ok chart => exact .inr ⟨rows, data, chart, opened, ⟨remarks, read⟩, made, drawn⟩

/-- The settings are those of the arguments. -/
theorem Opened.settings_eq {files : Files} {arguments : Arguments} {task : ChartTask}
    {settings : ChartSettings} {session : Session} {recipe : Recipe}
    (opened : Opened files arguments task settings session recipe) :
    settings = ⟨arguments.outDir, arguments.width, arguments.height⟩ := by
  have settled := opened.settled
  rw [ChartSettings.make] at settled
  split at settled
  · cases settled
  · cases settled
    rfl

/-- The chart is named for the task. -/
theorem Opened.heading_name {files : Files} {arguments : Arguments} {task : ChartTask}
    {settings : ChartSettings} {session : Session} {recipe : Recipe}
    (opened : Opened files arguments task settings session recipe) :
    recipe.heading.name = task.name := by
  obtain ⟨catalog, chart, -, plan, rfl⟩ := opened.follows
  cases task with
  | query file parameters bins =>
      rw [planned] at plan
      split at plan
      · cases plan
        rfl
      · cases plan
  | transfers interval | durations bins | fileSizes bins | replicas | traffic =>
      cases plan
      rfl

/-- The query of a chart. -/
def ChartPlan.query (files : Files) (catalog : Sql.Catalog) :
    ChartPlan → Except Error Sql.ReadQuery
  | .transfers _ => catalog.get files .transferTimes
  | .durations _ => catalog.get files .transferTimes
  | .fileSizes _ => catalog.get files .fileSizes
  | .replicas => catalog.get files .replicaLifetimes
  | .traffic => catalog.get files .transferTraffic
  | .values _ query _ _ => .ok query

/-- Where the engine leaves the files alone while it reads, and the query of a chart only reads, all
files are as they were when its rows have been read. -/
theorem read_keeps (keeps : Engine.Keeps Store.World.files) {files : Files}
    {catalog : Sql.Catalog} {chart : ChartPlan}
    (reads : ∀ query, chart.query files catalog = .ok query → Store.Marks.onlyReads query.sql)
    (session : Session) : ((Recipe.ofPlan catalog chart).read files session).files = files := by
  cases chart with
  | transfers interval => exact Session.records_keeps keeps reads
  | durations bins => exact Session.records_keeps keeps reads
  | fileSizes bins => exact Session.records_keeps keeps reads
  | replicas => exact Session.records_keeps keeps reads
  | traffic => exact Session.records_keeps keeps reads
  | values name query parameters bins =>
      exact Session.queryValues_keeps keeps (reads query rfl) parameters

end Charts

/-! ### One lemma for each act -/

section Stages

variable {m : Type → Type} [Monad m] [LawfulMonad m] {before : Files}

/-- The files of the moment are the ones that the act began with. -/
theorem Ends.files_bind {β : Type} {post : Except Stop β → Files → Prop} {next : Files → ActIn m β}
    (h : Ends (next before) before post) : Ends (ActIn.files >>= next) before post :=
  (ends_files ⟨rfl, rfl⟩).bind_ok h

theorem ends_plan {task : ChartTask} {post : Except Stop ChartPlan → Files → Prop}
    (h : post (planned before task) before) : Ends (m := m) (plan task) before post := by
  cases task with
  | query file parameters bins =>
      apply Ends.files_bind
      rw [planned] at h
      cases found : Sql.ReadQuery.ofFile before file with
      | error error =>
          rw [found] at h
          exact (ends_orReport ⟨rfl, rfl⟩).within.bind_error h
      | ok query =>
          rw [found] at h
          apply (ends_orReport ⟨rfl, rfl⟩).within.bind_ok
          exact (ends_say ⟨rfl, rfl⟩).bind_ok (ends_pure h)
  | transfers interval => exact ends_pure h
  | durations bins => exact ends_pure h
  | fileSizes bins => exact ends_pure h
  | replicas => exact ends_pure h
  | traffic => exact ends_pure h

theorem Ends.withinIf {α : Type} {context : Option String} {act : ActIn m α}
    {post : Except Stop α → Files → Prop}
    (ends : Ends act before fun result after =>
      post (result.mapError fun stop =>
        { stop with contexts := context.toList ++ stop.contexts }) after) :
    Ends (Command.withinIf context act) before post := by
  cases context with
  | none =>
      apply ends.mono
      intro result after h
      cases result <;> exact h
  | some context => exact ends.within

/-- A chart is drawn into the files. -/
theorem ends_render {settings : ChartSettings} {heading : Chart.Heading} {data : ChartData}
    {post : Except Stop String → Files → Prop}
    (h : post ((Chart.writeOrRefuse before settings heading.name
        (sketch settings heading data)).1.mapError fun failure => ⟨[], .ofFailure failure⟩)
      (Chart.writeOrRefuse before settings heading.name (sketch settings heading data)).2) :
    Ends (render settings heading data) before post := by
  apply Ends.files_bind
  apply (ends_sayAll ⟨rfl, rfl⟩).bind_ok
  apply ends_alter
  cases written : Chart.writeOrRefuse before settings heading.name
      (sketch settings heading data) with
  | mk result after =>
      rw [written] at h
      cases result <;> exact h

variable [Engine]

/-- Reading the rows leaves what the engine has left. -/
theorem ends_readRows {recipe : Recipe} {session : Session}
    {post : Except Stop (List recipe.Row) → Files → Prop}
    (h : post (((recipe.read before session).answer.map Prod.fst).mapError fun error =>
      ⟨[], .refused error⟩) (recipe.read before session).files) :
    Ends (readRows recipe session) before post := by
  apply (ends_sayAll ⟨rfl, rfl⟩).bind_ok
  apply Ends.bind_alter
  · intro found answered
    dsimp only at answered ⊢
    cases read : (recipe.read before session).answer with
    | error error =>
        rw [read] at answered
        cases answered
    | ok given =>
        rw [read] at answered h
        cases answered
        exact (ends_sayAll ⟨rfl, rfl⟩).bind_ok (ends_pure h)
  · intro cause answered
    dsimp only at answered ⊢
    cases read : (recipe.read before session).answer with
    | error error =>
        rw [read] at answered h
        cases answered
        exact h
    | ok given =>
        rw [read] at answered
        cases answered

theorem ends_makeData {recipe : Recipe} {rows : List recipe.Row}
    {post : Except Stop ChartData → Files → Prop}
    (h : post ((recipe.transform rows).mapError fun failure => ⟨[], .ofFailure failure⟩) before) :
    Ends (makeData recipe rows) before post :=
  (ends_sayAll ⟨rfl, rfl⟩).bind_ok (ends_orStop h)

variable {clock : Clock m} {arguments : Arguments} {task : ChartTask} {settings : ChartSettings}
  {session : Session} {recipe : Recipe}

/-- A run with a chart goes on from the files after its query. -/
theorem ends_follow (honest : clock.Honest) {rows : List recipe.Row} {data : ChartData}
    {chart : Sketch} {post : Except Stop Summary → Files → Prop}
    (drawn : Drawn before arguments task settings session recipe rows data chart)
    (h : let made :=
        Chart.write (recipe.read before session).files settings recipe.heading.name chart
      post ((made.1.map fun path => ⟨recipe.heading.name, path, rows.length, data⟩).mapError
        fun failure => ⟨[], .ofFailure failure⟩) made.2) :
    Ends (follow clock settings session recipe) before post := by
  obtain ⟨opened, ⟨remarks, read⟩, made, drawn⟩ := drawn
  apply (Ends.timed honest (ends_readRows ⟨by rw [read]; rfl, rfl⟩)).bind_ok
  generalize (recipe.read before session).files = ready at h ⊢
  apply (Ends.withinIf (Ends.timed honest (ends_makeData ⟨by rw [made]; rfl, rfl⟩))).bind_ok
  have rendered : Ends (render settings recipe.heading data) ready fun result after =>
      result = ((Chart.write ready settings recipe.heading.name chart).1.mapError fun failure =>
        ⟨[], .ofFailure failure⟩) ∧
      after = (Chart.write ready settings recipe.heading.name chart).2 :=
    ends_render (by rw [drawn]; exact ⟨rfl, rfl⟩)
  apply (Ends.timed honest rendered).bind_step
  · intro path written
    dsimp only at h
    rw [written] at h
    exact ends_pure h
  · intro failure written
    dsimp only at h
    rw [written] at h
    exact h

theorem ends_draw_of_opened {post : Except Stop Summary → Files → Prop}
    (opened : Opened before arguments task settings session recipe)
    (h : Ends (follow clock settings session recipe) before post) :
    Ends (draw clock arguments task) before post := by
  obtain ⟨accepted, settled, ⟨connection, loaded, connected⟩, catalog, chart, listed, plan, rfl⟩ :=
    opened
  apply Ends.files_bind
  apply Ends.accepted loaded
  apply Ends.accepted listed
  apply Ends.accepted settled
  apply (ends_orReport ⟨by rw [connected]; rfl, rfl⟩).within.bind_ok
  apply (ends_say ⟨rfl, rfl⟩).bind_ok
  apply (ends_plan ⟨plan, rfl⟩).bind_ok
  apply h.bind
  · intro summary files held
    exact (ends_say ⟨rfl, rfl⟩).bind_ok (ends_pure held)
  · intro stop files held
    exact held

/-- A run that stops before its chart leaves the files that it has come to. -/
theorem ends_draw_of_undrawn (honest : clock.Honest) {stop : Stop} {left : Files}
    (undrawn : Undrawn before arguments task stop left)
    (passed : checkArguments before arguments = .ok ()) :
    Ends (draw clock arguments task) before fun result after =>
      result = .error stop ∧ after = left := by
  cases undrawn with
  | arguments refused =>
      rw [passed] at refused
      cases refused
  | connection _ refused =>
      apply Ends.files_bind
      exact Ends.refused refused ⟨rfl, rfl⟩
  | catalog _ loaded refused =>
      apply Ends.files_bind
      apply Ends.accepted loaded
      exact Ends.refused refused ⟨rfl, rfl⟩
  | settings _ loaded listed refused =>
      apply Ends.files_bind
      apply Ends.accepted loaded
      apply Ends.accepted listed
      exact Ends.refused refused ⟨rfl, rfl⟩
  | database _ loaded listed settled refused =>
      apply Ends.files_bind
      apply Ends.accepted loaded
      apply Ends.accepted listed
      apply Ends.accepted settled
      exact (ends_orReport ⟨by rw [refused]; rfl, rfl⟩).within.bind_error ⟨rfl, rfl⟩
  | query _ loaded listed settled connected refused =>
      apply Ends.files_bind
      apply Ends.accepted loaded
      apply Ends.accepted listed
      apply Ends.accepted settled
      apply (ends_orReport ⟨by rw [connected]; rfl, rfl⟩).within.bind_ok
      apply (ends_say ⟨rfl, rfl⟩).bind_ok
      exact (ends_plan ⟨refused, rfl⟩).bind_error ⟨rfl, rfl⟩
  | rows opened refused =>
      apply ends_draw_of_opened opened
      exact (Ends.timed honest (ends_readRows ⟨by rw [refused]; rfl, rfl⟩)).bind_error ⟨rfl, rfl⟩
  | transform opened read refused =>
      apply ends_draw_of_opened opened
      apply (Ends.timed honest (ends_readRows ⟨by rw [read]; rfl, rfl⟩)).bind_ok
      apply (Ends.withinIf (Ends.timed honest (ends_makeData ⟨?_, rfl⟩))).bind_error ⟨rfl, rfl⟩
      rw [refused]
      simp [Except.mapError]
  | noData opened read made refused =>
      apply ends_draw_of_opened opened
      apply (Ends.timed honest (ends_readRows ⟨by rw [read]; rfl, rfl⟩)).bind_ok
      apply (Ends.withinIf (Ends.timed honest (ends_makeData ⟨by rw [made]; rfl, rfl⟩))).bind_ok
      apply (Ends.timed honest (ends_render (by rw [refused]; exact ⟨rfl, rfl⟩))).bind_error
      exact ⟨rfl, rfl⟩

/-- What stops a plot run in front of its chart stops it with the files that are left there. -/
theorem ends_perform_of_undrawn (honest : clock.Honest) {stop : Stop} {left : Files}
    (is : arguments.task = .draw task) (undrawn : Undrawn before arguments task stop left) :
    Ends (perform clock arguments) before fun result after =>
      result = .error stop ∧ after = left := by
  apply Ends.files_bind
  rcases undrawn.accepted_or with accepted | ⟨cause, refused, rfl, rfl⟩
  · apply Ends.accepted (by rw [accepted]; rfl)
    simp only [is]
    exact (ends_draw_of_undrawn honest undrawn accepted).bind_error ⟨rfl, rfl⟩
  · exact Ends.refused (by rw [refused]; rfl) ⟨rfl, rfl⟩

end Stages

/-! ### What is changed -/

/-- What a chart changes: the place that its path leads to, and the directories that were missing on
the way to its own. -/
def OfChart (arguments : Arguments) (task : ChartTask) (before after : Files) (place : Place) :
    Prop :=
  after.resolve (arguments.chartPath task) = .ok place ∨
    Files.Made (Files.placesAlong arguments.outDir) before after place

/-- What the text of a run changes, if it goes to a file: the place that the path leads to. -/
def OfText (arguments : Arguments) (after : Files) (place : Place) : Prop :=
  ∃ path, arguments.target? = some path ∧ after.resolve path = .ok place

section Frames

variable {before : Files} {arguments : Arguments} {task : ChartTask}

/-- The directories of a chart are made, and then its file is written. -/
theorem changesOnly_put_chart {ready : Files} {place : Place} (node : Node)
    (made : Files.ChangesOnly before ready
      (Files.Made (Files.placesAlong arguments.outDir) before ready))
    (writable : ready.writable (arguments.chartPath task) = .ok place) :
    Files.ChangesOnly before (ready.put place node)
      (OfChart arguments task before (ready.put place node)) := by
  have written := Files.changesOnly_write node writable
  apply made.trans written
  · rintro other ⟨along, absent, there⟩
    exact .inr ⟨along, absent, written.keeps other there⟩
  · exact fun _ => .inl

/-- Writing a chart changes its directories and its file. -/
theorem changesOnly_write (sketch : Sketch) {result : Except Failure String} {after : Files}
    (written : Chart.write before ⟨arguments.outDir, arguments.width, arguments.height⟩ task.name
      sketch = (result, after)) :
    Files.ChangesOnly before after (OfChart arguments task before after) := by
  have made := Files.changesOnly_makeDirectories before arguments.outDir
  rw [Chart.write] at written
  split at written
  · rename_i fault ready is
    rw [is] at made
    cases written
    exact made.mono fun _ => .inr
  · rename_i ready is
    rw [is] at made
    dsimp only at written
    split at written
    · cases written
      exact changesOnly_put_chart _ made ‹_›
    · cases written
      exact made.mono fun _ => .inr
    · cases written
      exact changesOnly_put_chart _ made ‹_›
    · cases written
      exact made.mono fun _ => .inr

variable {m : Type → Type} [Monad m] [LawfulMonad m] {clock : Clock m}

theorem ends_summaryText {summary : Summary} :
    Ends (summaryText clock arguments summary) before fun _ after => after = before := by
  rw [summaryText]
  cases arguments.format with
  | text => exact ends_orStop rfl
  | json =>
      have told : Ends (liftM clock.now : ActIn m String) before fun _ after => after = before :=
        ends_liftM fun _ => rfl
      apply told.bind
      · rintro now files rfl
        exact ends_pure rfl
      · rintro stop files rfl
        rfl

/-- The text goes to the file that is named for it, or to none. -/
theorem ends_deliver {text : String} :
    Ends (m := m) (deliver arguments text) before fun _ after =>
      Files.ChangesOnly before after (OfText arguments after) := by
  rw [deliver]
  cases target : arguments.target? with
  | none => exact ends_print (.refl before _)
  | some path =>
      apply Ends.bind_keeps
      · apply Ends.within
        apply ends_alter
        rw [Files.writeText_eq]
        cases writable : before.writable path with
        | error fault => exact .refl before _
        | ok place =>
            apply (Files.changesOnly_write (.text text) writable).mono
            intro other leads
            exact ⟨path, target, leads⟩
      · intro _ files changes
        exact ends_say changes

/-- A text is delivered after a step that changed places of a kind. -/
theorem ends_deliver_after {kind : Files → Place → Prop} {middle : Files} {text : String}
    (changes : Files.ChangesOnly before middle (kind middle))
    (stays : ∀ {after place other}, Files.ChangesOnly middle after other →
      kind middle place → kind after place) :
    Ends (m := m) (deliver arguments text) middle fun _ after =>
      Files.ChangesOnly before after fun place =>
        kind after place ∨ OfText arguments after place := by
  apply ends_deliver.mono
  intro result after more
  exact changes.trans more (fun _ held => .inl (stays more held)) fun _ => .inr

/-- What belongs to the chart still does when the text of the run is written. -/
theorem OfChart.stays {middle after : Files} {kind : Place → Prop} {place : Place}
    (changes : Files.ChangesOnly middle after kind)
    (held : OfChart arguments task before middle place) :
    OfChart arguments task before after place := by
  rcases held with leads | ⟨along, absent, there⟩
  · exact .inl (changes.resolve leads)
  · exact .inr ⟨along, absent, changes.keeps place there⟩

/-! ### Updates -/

/-- What an update changes: the place that its output path leads to. -/
theorem changesOnly_update (config skus output : String) {result : Except Error Sku.MergeReport}
    {after : Files} (updated : Sku.update before config skus output = (result, after)) :
    Files.ChangesOnly before after fun place => after.resolve output = .ok place := by
  rcases Sku.update_cases before config skus with
    ⟨error, refused⟩ | idle | ⟨document, regions, merged, report, ready⟩
  · rw [Sku.update_of_refused refused] at updated
    cases updated
    exact .refl before _
  · rw [Sku.update_of_noRegions idle] at updated
    cases updated
    exact .refl before _
  · rw [Sku.update_of_ready output ready] at updated
    cases writable : before.writable output with
    | error fault =>
        rw [writable] at updated
        cases updated
        exact .refl before _
    | ok place =>
        rw [writable] at updated
        cases updated
        exact Files.changesOnly_write _ writable

/-- An update ends like the update of the configuration. -/
theorem ends_updateSku {config skus output : String}
    {post : Except Stop Sku.MergeReport → Files → Prop}
    (h : post ((Sku.update before config skus output).1.mapError fun error =>
        ⟨["Failed to update " ++ config], .refused error⟩)
      (Sku.update before config skus output).2) :
    Ends (m := m) (updateSku config skus output) before post := by
  rcases ended : Sku.update before config skus output with ⟨result, left⟩
  rw [ended] at h
  apply Ends.within
  apply Ends.files_bind
  apply (ends_sayAll ⟨rfl, rfl⟩).bind_ok
  apply Ends.bind_alter
  · intro report updated
    rw [ended] at updated ⊢
    cases result with
    | error error => cases updated
    | ok made =>
        cases updated
        cases report.written with
        | true => exact (ends_say ⟨rfl, rfl⟩).bind_ok (ends_pure h)
        | false => exact ends_pure h
  · intro cause stopped
    rw [ended] at stopped ⊢
    cases result with
    | ok made => cases stopped
    | error error =>
        cases stopped
        exact h

/-! ### How the acts of a run end -/

variable [Engine] {settings : ChartSettings} {session : Session} {recipe : Recipe}

/-- From the files after the query on, a plot run changes what belongs to its chart. -/
theorem ends_draw (honest : clock.Honest)
    (opened : Opened before arguments task settings session recipe) :
    Ends (draw clock arguments task) before fun _ after =>
      let ready := (recipe.read before session).files
      Files.ChangesOnly ready after (OfChart arguments task ready after) := by
  rcases opened.undrawn_or_drawn with ⟨stop, undrawn⟩ | ⟨rows, data, chart, drawn⟩
  · apply (ends_draw_of_undrawn honest undrawn opened.accepted).mono
    rintro result after ⟨-, rfl⟩
    exact .refl _ _
  · apply ends_draw_of_opened opened
    apply ends_follow honest drawn
    rw [opened.settings_eq, opened.heading_name]
    exact changesOnly_write chart rfl

/-- With the text of the run it changes the file for that, too. -/
theorem ends_perform_draw (honest : clock.Honest) (is : arguments.task = .draw task)
    (opened : Opened before arguments task settings session recipe) :
    Ends (perform clock arguments) before fun _ after =>
      let ready := (recipe.read before session).files
      Files.ChangesOnly ready after fun place =>
        OfChart arguments task ready after place ∨ OfText arguments after place := by
  apply Ends.files_bind
  apply Ends.accepted (by rw [opened.accepted]; rfl)
  simp only [is]
  apply (ends_draw honest opened).bind
  · intro summary middle changes
    apply ends_summaryText.bind
    · rintro text files rfl
      exact ends_deliver_after changes OfChart.stays
    · rintro stop files rfl
      exact changes.mono fun _ => .inl
  · intro stop middle changes
    exact changes.mono fun _ => .inl

/-- An update changes its output and the file for its text. -/
theorem ends_perform_update {config skus output : String}
    (is : arguments.task = .updateSku config skus output) :
    Ends (perform clock arguments) before fun _ after =>
      Files.ChangesOnly before after fun place =>
        after.resolve output = .ok place ∨ OfText arguments after place := by
  apply Ends.files_bind
  cases checked : checkArguments before arguments with
  | error cause => exact (ends_orReport ⟨rfl, rfl⟩).bind_error (.refl before _)
  | ok _ =>
      apply (ends_orReport ⟨rfl, rfl⟩).bind_ok
      simp only [is]
      have updated : Ends (m := m) (updateSku config skus output) before fun _ after =>
          Files.ChangesOnly before after fun place => after.resolve output = .ok place :=
        ends_updateSku (changesOnly_update config skus output rfl)
      apply updated.bind
      · intro report middle changes
        exact ends_deliver_after changes fun more leads => more.resolve leads
      · intro stop middle changes
        exact changes.mono fun _ => .inl

/-- What refuses an update stops the run with the files as they were. -/
theorem ends_perform_of_refused {config skus output : String} {error : Error}
    (is : arguments.task = .updateSku config skus output)
    (refused : Sku.Refused before config skus error) :
    Ends (perform clock arguments) before fun result after =>
      (∃ stop, result = .error stop) ∧ after = before := by
  apply Ends.files_bind
  cases checked : checkArguments before arguments with
  | error cause => exact (ends_orReport ⟨rfl, rfl⟩).bind_error ⟨⟨_, rfl⟩, rfl⟩
  | ok _ =>
      apply (ends_orReport ⟨rfl, rfl⟩).bind_ok
      simp only [is]
      have stopped : Ends (m := m) (updateSku config skus output) before fun result after =>
          result = .error ⟨["Failed to update " ++ config], .refused error⟩ ∧ after = before :=
        ends_updateSku (by rw [Sku.update_of_refused refused]; exact ⟨rfl, rfl⟩)
      exact stopped.bind_error ⟨⟨_, rfl⟩, rfl⟩

end Frames

/-! ### Whole runs -/

section Runs

variable [Engine] {m : Type → Type} [Monad m] [LawfulMonad m] {clock : Clock m}
  {words : List String} {before : Files}

/-- A run leaves the files that its acts leave, and stops where they stop. -/
theorem surely_run {arguments : Arguments} {post : Except Stop Unit → Files → Prop}
    (parsed : Arguments.parse words = .ok arguments)
    (ends : Ends (perform clock arguments) before post) :
    Surely (fun outcome => ∃ result, post result outcome.files ∧
      ∀ stop, result = .error stop → outcome.ending = .stopped stop) (run clock words before) := by
  rw [run, parsed]
  apply (ends (Scene.start before) rfl).bind
  rintro ⟨result, scene⟩ held
  cases result with
  | error stop =>
      apply surely_pure
      refine ⟨.error stop, held, ?_⟩
      intro other same
      cases same
      rfl
  | ok done =>
      apply (surely_true clock.sinceStart).bind
      intro seconds _
      apply surely_pure
      refine ⟨.ok done, held, ?_⟩
      intro stop same
      cases same

/-- **What a run changes.** Words that lead to no run change nothing. A plot run either is stopped
by its arguments, its connection file, the catalog, the settings, the database or its query, with
all files as they were, or it comes to its query. There the engine is asked and may change files of
its own: none, if it leaves them alone where a text only reads and the query of the chart does. If
the run stops then, at the rows, at what is made of them or at a chart without data, these are the
files that are left. Otherwise it changes at most the place that the path of its chart leads to, the
place of the file that is named for its text, and places on the way to its output directory where
nothing was and a directory is made. An update changes at most the place of its output and of the
file for its text, and nothing if it is refused. -/
theorem run_changes (clock : Clock m) (honest : clock.Honest) (words : List String)
    (before : Files) :
    (∀ instead, Arguments.parse words = .error instead →
      Surely (fun outcome => outcome.files = before) (run clock words before)) ∧
    (∀ arguments task, Arguments.parse words = .ok arguments → arguments.task = .draw task →
      (∀ stop left, Undrawn before arguments task stop left →
        Surely (fun outcome => outcome.ending = .stopped stop ∧ outcome.files = left)
          (run clock words before)) ∧
      ((∃ stop, Undrawn before arguments task stop before) ∨
        ∃ settings session catalog chart,
          Opened before arguments task settings session (.ofPlan catalog chart) ∧
          let ready := ((Recipe.ofPlan catalog chart).read before session).files
          (Engine.Keeps Store.World.files →
            (∀ query, chart.query before catalog = .ok query →
              Store.Marks.onlyReads query.sql) → ready = before) ∧
          Surely (fun outcome => ∀ place, outcome.files.at? place ≠ ready.at? place →
            OfChart arguments task ready outcome.files place ∨
              OfText arguments outcome.files place) (run clock words before))) ∧
    ∀ arguments config skus output, Arguments.parse words = .ok arguments →
      arguments.task = .updateSku config skus output →
      (∀ error, Sku.Refused before config skus error →
        Surely (fun outcome => (∃ stop, outcome.ending = .stopped stop) ∧ outcome.files = before)
          (run clock words before)) ∧
      Surely (fun outcome => ∀ place, outcome.files.at? place ≠ before.at? place →
        outcome.files.resolve output = .ok place ∨ OfText arguments outcome.files place)
        (run clock words before) := by
  refine ⟨?_, ?_, ?_⟩
  · intro instead misused
    rw [run, misused]
    cases instead <;> exact surely_pure rfl
  · intro arguments task parsed is
    constructor
    · intro stop left undrawn
      apply (surely_run parsed (ends_perform_of_undrawn honest is undrawn)).mono
      rintro outcome ⟨result, ⟨rfl, same⟩, stops⟩
      exact ⟨stops stop rfl, same⟩
    · refine (undrawn_or_opened before arguments task).imp_right ?_
      rintro ⟨settings, session, recipe, opened⟩
      obtain ⟨catalog, chart, -, -, rfl⟩ := opened.follows
      refine ⟨settings, session, catalog, chart, opened, ?_, ?_⟩
      · intro keeps reads
        exact read_keeps keeps reads session
      apply (surely_run parsed (ends_perform_draw honest is opened)).mono
      rintro outcome ⟨_, changes, -⟩
      exact changes.only
  · intro arguments config skus output parsed is
    constructor
    · intro error refused
      apply (surely_run parsed (ends_perform_of_refused is refused)).mono
      rintro outcome ⟨result, ⟨⟨stop, rfl⟩, same⟩, stops⟩
      exact ⟨⟨stop, stops stop rfl⟩, same⟩
    · apply (surely_run parsed (ends_perform_update is)).mono
      rintro outcome ⟨_, changes, -⟩
      exact changes.only

end Runs

/-- A command line for a chart in a directory of its own. -/
def chartWords : List String :=
  ["filesize", "--bins", "1", "--db-config", "c.json", "--out-dir", "charts", "--width", "131",
    "--height", "137", "-q"]

/-- What the command line asks for. -/
def chartArguments : Arguments :=
  ⟨.draw (.fileSizes 1), "c.json", none, "charts", 131, 137, .text, none, true⟩

/-- A connection file and a database with one file in it, and no directory. -/
def chartFiles : Files :=
  let sizes : Store.Table :=
    ⟨"Files", ["id", "createdAt", "expiredAt", "filesize"].map (⟨·, .numeric⟩), 0,
      [⟨1, [.integer 1, .integer 0, .integer 100, .integer 10]⟩]⟩
  ⟨[(["sim.db"], .database ⟨[sizes]⟩),
    (["c.json"], .text "\x7b\"connectionStr\": \"sim.db\"\x7d")]⟩

theorem parse_chartWords : Arguments.parse chartWords = .ok chartArguments := rfl

theorem chartRun_leaves :
    let outcome := (run (Clock.still "0") chartWords chartFiles).run
    outcome.exit = 0 ∧ (outcome.files.at? ["charts"]).isSome ∧
      (outcome.files.resolve (chartArguments.chartPath (.fileSizes 1))).toOption =
        some ["charts", "filesize.svg"] := by
  decide +kernel

theorem run_changes_directory :
    let outcome := (run (Clock.still "0") chartWords chartFiles).run
    outcome.exit = 0 ∧ ∃ settings session catalog chart,
      Opened chartFiles chartArguments (.fileSizes 1) settings session (.ofPlan catalog chart) ∧
        let ready := ((Recipe.ofPlan catalog chart).read chartFiles session).files
        ∀ place, outcome.files.at? place ≠ ready.at? place →
          OfChart chartArguments (.fileSizes 1) ready outcome.files place ∨
            OfText chartArguments outcome.files place := by
  intro outcome
  obtain ⟨-, plots, -⟩ :=
    run_changes (Clock.still "0") (Clock.still_honest "0") chartWords chartFiles
  obtain ⟨stops, ⟨stop, undrawn⟩ | ⟨settings, session, catalog, chart, opened, -, changes⟩⟩ :=
    plots chartArguments (.fileSizes 1) parse_chartWords rfl
  · obtain ⟨stopped, -⟩ := surely_id_iff.mp (stops stop chartFiles undrawn)
    have done := chartRun_leaves.1
    rw [Outcome.exit, stopped] at done
    cases stop with
    | mk contexts cause => cases cause <;> cases done
  · exact ⟨chartRun_leaves.1, settings, session, catalog, chart, opened, surely_id_iff.mp changes⟩

/-- The directory is changed, too: it is neither the chart nor a file that was named. -/
theorem run_makes_directory :
    let outcome := (run (Clock.still "0") chartWords chartFiles).run
    Arguments.parse chartWords = .ok chartArguments ∧ outcome.exit = 0 ∧
      ¬ ∀ place, outcome.files.at? place ≠ chartFiles.at? place →
        outcome.files.resolve (chartArguments.chartPath (.fileSizes 1)) = .ok place ∨
          OfText chartArguments outcome.files place := by
  intro outcome
  obtain ⟨done, there, leads⟩ := chartRun_leaves
  refine ⟨parse_chartWords, done, fun only => ?_⟩
  have changed : outcome.files.at? ["charts"] ≠ chartFiles.at? ["charts"] := by
    intro same
    have absent : chartFiles.at? ["charts"] = none := rfl
    rw [same, absent] at there
    cases there
  rcases only ["charts"] changed with chart | ⟨path, named, -⟩
  · rw [chart] at leads
    cases leads
  · cases named

end GridReport.Command
