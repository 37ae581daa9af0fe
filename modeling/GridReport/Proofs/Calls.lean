import GridReport.Call
import GridReport.Proofs.Answers

/-!
How a call to the database ends.

A query is refused when it is prepared, or when the values do not fit its parameters, or its rows
are read. In each case the call leaves what the engine has left by then.

* `ask_of_unprepared`, `ask_of_untaken`, `ask_of_taken` — the three endings.
* `ask_cases` — there are no others.
* `ask_congr` — of the values, only what the statement makes of them counts.
* `Engine.Keeps` — what an engine leaves as it was, where a text only reads.
* `ask_keeps`, `records_keeps`, `queryValues_keeps` — a call keeps it, however it ends.
-/

namespace GridReport

/-- The engine keeps something of the database and of the files: preparing a text that only reads
leaves it as it was, and so does each step of a statement that was prepared from one. -/
structure Engine.Keeps [Engine] {α : Type} (content : Store.World Engine.Connection → α) :
    Prop where
  prepare : ∀ world sql, Store.Marks.onlyReads sql →
    content (Engine.prepare world sql).2 = content world
  run : ∀ before sql statement left, Store.Marks.onlyReads sql →
    Engine.prepare before sql = (.ok statement, left) → ∀ values world,
      (∀ row ∈ (Engine.run statement values world).rows, content row.2 = content world) ∧
        content (Engine.run statement values world).left = content world

/-- What a call leaves. -/
def Call.world [Engine] {α : Type} (call : Call α) : Store.World Engine.Connection :=
  ⟨call.session.home, call.files⟩

namespace Session

variable [Engine] {α : Type} {session : Session} {files : Files} {query : Sql.ReadQuery}
  {takes : List String → Except Store.Fault Unit} {values : String → Store.Cell}
  {read : Store.NamedRow → Except Store.Fault α} {statement : Engine.Statement}
  {left : Store.World Engine.Connection} {fault : Store.Fault}

/-- A text that cannot be prepared is not run. -/
theorem ask_of_unprepared
    (refused : Engine.prepare ⟨session.home, files⟩ query.sql = (.error fault, left)) :
    session.ask files query takes values read = session.finish (.error fault) left := by
  rw [ask, refused]

/-- Nor is a statement that does not take the values. -/
theorem ask_of_untaken
    (prepared : Engine.prepare ⟨session.home, files⟩ query.sql = (.ok statement, left))
    (refused : takes (Engine.parameters statement) = .error fault) :
    session.ask files query takes values read = session.finish (.error fault) left := by
  rw [ask, prepared]
  simp only [refused]

/-- A statement that takes the values is run, and its rows are read. -/
theorem ask_of_taken
    (prepared : Engine.prepare ⟨session.home, files⟩ query.sql = (.ok statement, left))
    (taken : takes (Engine.parameters statement) = .ok ()) :
    session.ask files query takes values read =
      let found := (Engine.run statement values left).readAll (Engine.columns statement) read
      session.finish found.1 found.2 := by
  rw [ask, prepared]
  simp only [taken]

/-- A call ends in one of three ways. -/
theorem ask_cases (session : Session) (files : Files) (query : Sql.ReadQuery)
    (takes : List String → Except Store.Fault Unit) (values : String → Store.Cell)
    (read : Store.NamedRow → Except Store.Fault α) :
    (∃ fault left, Engine.prepare ⟨session.home, files⟩ query.sql = (.error fault, left) ∧
      session.ask files query takes values read = session.finish (.error fault) left) ∨
    ∃ statement left, Engine.prepare ⟨session.home, files⟩ query.sql = (.ok statement, left) ∧
      ((∃ fault, takes (Engine.parameters statement) = .error fault ∧
        session.ask files query takes values read = session.finish (.error fault) left) ∨
      takes (Engine.parameters statement) = .ok () ∧
        session.ask files query takes values read =
          let found := (Engine.run statement values left).readAll (Engine.columns statement) read
          session.finish found.1 found.2) := by
  rcases prepared : Engine.prepare ⟨session.home, files⟩ query.sql with ⟨fault | statement, left⟩
  · exact .inl ⟨fault, left, rfl, ask_of_unprepared prepared⟩
  · refine .inr ⟨statement, left, rfl, ?_⟩
    cases taken : takes (Engine.parameters statement) with
    | error fault => exact .inl ⟨fault, rfl, ask_of_untaken prepared taken⟩
    | ok => exact .inr ⟨rfl, ask_of_taken prepared taken⟩

/-- Values that a statement takes just as others make no difference. -/
theorem ask_congr {others : List String → Except Store.Fault Unit}
    (same : ∀ statement left,
      Engine.prepare ⟨session.home, files⟩ query.sql = (.ok statement, left) →
        takes (Engine.parameters statement) = others (Engine.parameters statement)) :
    session.ask files query takes values read = session.ask files query others values read := by
  rw [ask, ask]
  rcases prepared : Engine.prepare ⟨session.home, files⟩ query.sql with ⟨fault | statement, left⟩
  · rfl
  · simp only [same statement left prepared]

/-! ### What is kept -/

section Keeping

variable {β : Type} {content : Store.World Engine.Connection → β}

@[simp] theorem world_map {γ : Type} (f : α → γ) (call : Call α) :
    (call.map f).world = call.world := rfl

@[simp] theorem world_refuse (error : Error) :
    (session.refuse files error : Call α).world = ⟨session.home, files⟩ := rfl

@[simp] theorem world_finish (answer : Except Store.Fault α)
    (left : Store.World Engine.Connection) : (session.finish answer left).world = left := rfl

/-- **A call keeps what reading keeps**, whether it is refused, fails at a row or reads them all. -/
theorem ask_keeps (keeps : Engine.Keeps content) (reads : Store.Marks.onlyReads query.sql) :
    content (session.ask files query takes values read).world = content ⟨session.home, files⟩ := by
  have prepared := keeps.prepare ⟨session.home, files⟩ query.sql reads
  rcases session.ask_cases files query takes values read with
    ⟨fault, left, refused, same⟩ | ⟨statement, left, given, ⟨fault, -, same⟩ | ⟨-, same⟩⟩
  · rw [refused] at prepared
    rw [same, world_finish, prepared]
  · rw [given] at prepared
    rw [same, world_finish, prepared]
  · rw [given] at prepared
    obtain ⟨each, last⟩ := keeps.run _ _ _ _ reads given values left
    rw [same, world_finish, ← prepared]
    exact Store.Answer.readAll_keeps (content · = content left) each last

/-- What the engine keeps is kept while the rows of a chart are read. -/
theorem records_keeps (keeps : Engine.Keeps content) {catalog : Sql.Catalog}
    {chart : Sql.ChartQuery}
    (reads : ∀ text, catalog.get files chart = .ok text → Store.Marks.onlyReads text.sql) :
    content (session.records files catalog chart read).world = content ⟨session.home, files⟩ := by
  rw [records]
  split
  · rfl
  · exact ask_keeps keeps (reads _ ‹_›)

/-- So it is while the values of a query are read, whatever values are given. -/
theorem queryValues_keeps (keeps : Engine.Keeps content)
    (reads : Store.Marks.onlyReads query.sql) (parameters : List Parameter) :
    content (session.queryValues files query parameters).world =
      content ⟨session.home, files⟩ := by
  rw [queryValues]
  split
  · rfl
  · exact ask_keeps keeps reads

end Keeping

end Session

end GridReport
