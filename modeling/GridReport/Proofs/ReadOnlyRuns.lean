import GridReport.Proofs.Calls
import GridReport.Proofs.CarefulQueries
import GridReport.Proofs.OpeningWords
import GridReport.Session

/-!
What a run of an accepted query leaves of the database.

A query is taken for one that only reads by the kind of its statement. A common table may stand in
front of an insertion or of an update, too, and with it they are queries. And the database, whose
comments do not nest, may find a statement in what is a comment for the check. Otherwise the text is
one that only reads, and what reading keeps is still there after the call, also if the call fails.

* `Home.keeps` — the engine at hand keeps everything where a text only reads.
* `queryValues_unchanged` — an accepted query only reads, unless a comment hides a statement or a
  common table stands in front of a change; and if it only reads, it changes nothing.
* `accepted_insertion` — texts that are accepted and change a table.
-/

namespace GridReport

namespace Store.Prepared

variable {tables : Except Fault Database} {sql : String} {prepared : Prepared}

/-- Only a text that says so is taken for a change. -/
theorem still_of_onlyReads (given : ofText tables sql = .ok prepared)
    (reads : Marks.onlyReads sql) (change : Change) : prepared.action ≠ .change change := by
  obtain ⟨statements, -, given⟩ := except_bind_eq_ok.mp given
  cases statements with
  | nil =>
    cases given
    simp
  | cons first others =>
    obtain ⟨action, -, given⟩ := except_bind_eq_ok.mp given
    cases action with
    | change made =>
      simp only [reads, if_true] at given
      cases given
    | _ =>
      cases given
      simp

/-- Only a change leaves another database. -/
theorem answer_of_still (still : ∀ change, prepared.action ≠ .change change)
    (values : String → Cell) (world : World Home) :
    (∀ row ∈ (prepared.answer values world).rows, row.2 = world) ∧
      (prepared.answer values world).left = world := by
  have same : (prepared.run values world.connection.isWritable).2 = none := by
    rw [run]
    split
    · rfl
    · exact absurd ‹_› (still _)
    · rfl
    · rfl
  simp [answer, same]

end Store.Prepared

/-- The engine at hand keeps everything where a text only reads. -/
theorem Home.keeps : Engine.Keeps fun world : Store.World Home => world where
  prepare _ _ _ := rfl
  run before sql prepared left reads given values world := by
    have from_text : Store.Prepared.ofText (before.connection.tables before.files) sql =
        .ok prepared := congrArg Prod.fst given
    exact Store.Prepared.answer_of_still (Store.Prepared.still_of_onlyReads from_text reads) values
      world

namespace Session

section

variable [Engine] {α : Type} {content : Store.World Engine.Connection → α}

/-- **What an accepted query changes.** The statement that is checked is a query. If no word of the
text starts a change, there is no insertion and no update in it, at any depth. If no comment in
front of the statement opens another one, the text that is stored only reads for the database, too,
unless it opens with common tables and has a word of a change behind them. And if it only reads,
asking for the values of the query leaves all as it was that reading leaves so, also where the call
fails. -/
theorem queryValues_unchanged (keeps : Engine.Keeps content) (text : String)
    (query : Sql.ReadQuery) (accepted : Sql.ReadQuery.ofText text = .ok query) :
    ∃ tree, Sql.parse .checking text = .ok [.query tree] ∧
      (Sql.Calm (Sql.tokens text) → tree.harmless) ∧
      (Sql.plainFront text → Store.Marks.onlyReads query.sql ∨
        Store.Marks.openingWord query.sql = "WITH" ∧ Store.Marks.hasChangeWord query.sql) ∧
      (Store.Marks.onlyReads query.sql →
        ∀ (session : Session) (files : Files) (parameters : List Parameter),
          content (session.queryValues files query parameters).world =
            content ⟨session.home, files⟩) := by
  obtain ⟨statement, parsed, select, -, -⟩ := Sql.ReadQuery.ofText_eq_ok accepted
  obtain ⟨_, taken⟩ := Sql.Parse.parse_cons parsed
  obtain ⟨tree, rfl, -, -⟩ := Sql.Parse.statement_reads taken select
  refine ⟨tree, parsed, Sql.harmless_of_calm parsed, fun plain => ?_, fun reads => ?_⟩
  · have opens := Sql.ReadQuery.openingWord_of_accepted accepted plain
    rw [or_iff_not_imp_right, not_and, Bool.not_eq_true]
    intro still
    simpa [Store.Marks.onlyReads, opens, imp_iff_not_or] using still
  · intro session files parameters
    exact queryValues_keeps keeps reads parameters

end

theorem queryValues_unchanged_sizes :
    let text := "SELECT filesize FROM Files WHERE filesize > :min"
    let query : Sql.ReadQuery := ⟨text, [":min"]⟩
    let files : Store.Table :=
      ⟨"Files", ["id", "createdAt", "expiredAt", "filesize"].map (⟨·, .numeric⟩), 0,
        [⟨1, [.integer 1, .integer 0, .integer 100, .integer 10]⟩]⟩
    let session := ofMemory ⟨[files]⟩
    let call := session.queryValues .empty query [⟨":min", .integer 5⟩]
    Sql.ReadQuery.ofText text = .ok query ∧ Sql.plainFront text ∧ Store.Marks.onlyReads query.sql ∧
      call.answer.toOption.map (·.values.length) = some 1 ∧
      call.world = ⟨session.home, .empty⟩ := by
  intro text query files session call
  have accepted : Sql.ReadQuery.ofText text = .ok query := by decide +kernel
  have plain : Sql.plainFront text := by decide +kernel
  obtain ⟨tree, -, -, opens, runs⟩ := queryValues_unchanged Home.keeps text query accepted
  have reads : Store.Marks.onlyReads query.sql :=
    (opens plain).resolve_right (by decide +kernel)
  exact ⟨accepted, plain, reads, by decide +kernel, runs reads session .empty _⟩

/-- A common table in front of an insertion makes it a query: the text is accepted, and it puts a
row into a table, also where its own row cannot be read. And a comment in a comment hides a deletion
from the check, but not from the database. -/
theorem accepted_insertion :
    let insertion := "WITH n AS (SELECT 2) INSERT INTO Files SELECT 2, 0, 100, 20"
    let returning := insertion ++ " RETURNING 'x'"
    let hidden := "/* /* */ DELETE FROM Files; -- */ SELECT 1"
    let files : Store.Table :=
      ⟨"Files", ["id", "createdAt", "expiredAt", "filesize"].map (⟨·, .numeric⟩), 0,
        [⟨1, [.integer 1, .integer 0, .integer 100, .integer 10]⟩]⟩
    let left (text : String) : Bool × Option (List Nat) :=
      let call := (ofMemory ⟨[files]⟩).queryValues .empty ⟨text, []⟩ []
      (call.answer.toOption.isSome, (call.session.tables .empty).toOption.map fun database =>
        database.tables.map fun table => table.rows.length)
    (∀ text ∈ [insertion, returning, hidden], Sql.ReadQuery.ofText text = .ok ⟨text, []⟩) ∧
      (Sql.parse .checking insertion).toOption.map (List.map Sql.Statement.harmless) =
        some [false] ∧
      left insertion = (true, some [2]) ∧ left returning = (false, some [2]) ∧
      left hidden = (true, some [0]) ∧ Sql.plainFront hidden = false := by
  decide +kernel

end Session

end GridReport
