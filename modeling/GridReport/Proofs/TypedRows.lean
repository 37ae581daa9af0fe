import GridReport.Proofs.Calls

/-!
Rows read as records: all of them, or the fault of the first cell that does not fit.

What a record needs of a row is a list of slots in the order in which they are read, each with a
column and the storage classes that it takes. A reader of rows is put together from readers of
single cells, and keeps to such a list: this is stated once for a cell, once for going on to the
next one, and once for all rows.

* `Slot.Fits`, `Slot.Refuses` — a cell that a slot takes, and the fault of any other.
* `Takes.step`, `Takes.done` — readers of rows, slot by slot.
* `Takes.allOrNothing` — all rows of an answer.
* `records_all_or_nothing` — the four kinds of records that charts are made from.
-/

namespace GridReport

namespace Store

/-! ### Slots -/

/-- What a slot of a record takes from a cell. -/
inductive Demand where
  | integer
  | integerOrNull
  | numberOrNull
  | text
deriving Repr, DecidableEq

/-- The storage classes that are taken. -/
def Demand.takes : Demand → CellKind → Bool
  | .integer, .integer => true
  | .integerOrNull, .null => true
  | .integerOrNull, .integer => true
  | .numberOrNull, .null => true
  | .numberOrNull, .integer => true
  | .numberOrNull, .real => true
  | .text, .text => true
  | _, _ => false

/-- A slot of a record: the position of its column, and what it takes. -/
structure Slot where
  position : Nat
  demand : Demand
deriving Repr, DecidableEq

/-- The row has a cell for the slot, of a class that is taken. -/
def Slot.Fits (slot : Slot) (row : NamedRow) : Prop :=
  ∃ cell, row.cells[slot.position]? = some cell ∧ slot.demand.takes cell.kind = true

/-- The fault of a row that does not fit: it lacks the column, or its cell is of another class. -/
inductive Slot.Refuses (slot : Slot) (row : NamedRow) : Fault → Prop where
  | missing (absent : row.cells[slot.position]? = none) :
      Refuses slot row (.columnIndex slot.position)
  | misfit {cell : Cell} (here : row.cells[slot.position]? = some cell)
      (wrong : slot.demand.takes cell.kind = false) :
      Refuses slot row (.columnType cell.kind slot.position
        ((row.columns[slot.position]?).getD ""))

/-- The row fits all slots. -/
def RowFits (order : List Slot) (row : NamedRow) : Prop := ∀ slot ∈ order, slot.Fits row

/-- The fault of the first slot that the row does not fit. -/
def FirstFault (order : List Slot) (row : NamedRow) (fault : Fault) : Prop :=
  ∃ earlier slot later, order = earlier ++ slot :: later ∧ RowFits earlier row ∧
    slot.Refuses row fault

section Rows

variable {slot : Slot} {order : List Slot} {row : NamedRow} {fault other : Fault}

theorem Slot.Refuses.not_fits (refuses : slot.Refuses row fault) : ¬ slot.Fits row := by
  rintro ⟨cell, here, taken⟩
  cases refuses with
  | missing absent => cases here.symm.trans absent
  | misfit here' wrong =>
      cases here.symm.trans here'
      cases taken.symm.trans wrong

/-- A slot refuses a row with one fault. -/
theorem Slot.Refuses.unique (one : slot.Refuses row fault) (two : slot.Refuses row other) :
    fault = other := by
  cases one with
  | missing absent =>
      cases two with
      | missing => rfl
      | misfit here => cases absent.symm.trans here
  | misfit here =>
      cases two with
      | missing absent => cases here.symm.trans absent
      | misfit here' => cases here.symm.trans here'; rfl

/-- The first fault is that of the first slot, or of a later one where the first fits. -/
theorem firstFault_cons : FirstFault (slot :: order) row fault ↔
    slot.Refuses row fault ∨ slot.Fits row ∧ FirstFault order row fault := by
  constructor
  · rintro ⟨earlier, first, later, split, fits, refuses⟩
    cases earlier with
    | nil =>
        cases split
        exact .inl refuses
    | cons head earlier =>
        cases split
        obtain ⟨here, rest⟩ := List.forall_mem_cons.mp fits
        exact .inr ⟨here, earlier, first, later, rfl, rest, refuses⟩
  · rintro (refuses | ⟨here, earlier, first, later, rfl, rest, refuses⟩)
    · exact ⟨[], slot, order, rfl, List.forall_mem_nil _, refuses⟩
    · exact ⟨slot :: earlier, first, later, rfl, List.forall_mem_cons.mpr ⟨here, rest⟩, refuses⟩

theorem FirstFault.not_fits (first : FirstFault order row fault) : ¬ RowFits order row := by
  obtain ⟨earlier, slot, later, rfl, -, refuses⟩ := first
  exact fun fits => refuses.not_fits (fits slot (by simp))

/-- A row has one first fault. -/
theorem FirstFault.unique (one : FirstFault order row fault) (two : FirstFault order row other) :
    fault = other := by
  induction order with
  | nil =>
      obtain ⟨earlier, slot, later, split, -⟩ := one
      simp at split
  | cons slot order ih =>
      rcases firstFault_cons.mp one with here | ⟨fits, one⟩
      · rcases firstFault_cons.mp two with here' | ⟨fits', -⟩
        · exact here.unique here'
        · exact absurd fits' here.not_fits
      · rcases firstFault_cons.mp two with here' | ⟨-, two⟩
        · exact absurd fits here'.not_fits
        · exact ih one two

end Rows

/-! ### Readers -/

section Readers

variable {α β : Type}

/-- The reader takes one cell: `Holds` says what it reads in a cell that fits. -/
structure TakesCell (slot : Slot) (Holds : Cell → α → Prop)
    (read : NamedRow → Except Fault α) : Prop where
  ok : ∀ row a, read row = .ok a → slot.Fits row ∧
    ∃ cell, row.cells[slot.position]? = some cell ∧ Holds cell a
  error : ∀ row fault, read row = .error fault → slot.Refuses row fault

/-- The reader looks at the slots in their order and at nothing behind the first one that the row
does not fit: `Shows` says what it makes of a row that fits. -/
structure Takes (order : List Slot) (Shows : NamedRow → α → Prop)
    (read : NamedRow → Except Fault α) : Prop where
  ok : ∀ row a, read row = .ok a → RowFits order row ∧ Shows row a
  error : ∀ row fault, read row = .error fault → FirstFault order row fault

theorem Takes.done {Shows : NamedRow → α → Prop} {a : α} (shown : ∀ row, Shows row a) :
    Takes [] Shows fun _ => .ok a where
  ok row _ read := by
    cases read
    exact ⟨List.forall_mem_nil _, shown row⟩
  error _ _ read := by cases read

/-- A reader that goes on after a cell may rely on what was in it. -/
theorem Takes.step {slot : Slot} {order : List Slot} {Holds : Cell → α → Prop}
    {Shows : NamedRow → β → Prop} {read : NamedRow → Except Fault α}
    {next : NamedRow → α → Except Fault β} (cell : TakesCell slot Holds read)
    (rest : ∀ a, Takes order
      (fun row b => (∃ cell, row.cells[slot.position]? = some cell ∧ Holds cell a) → Shows row b)
      (next · a)) :
    Takes (slot :: order) Shows fun row => read row >>= next row where
  ok row b done := by
    obtain ⟨a, here, later⟩ := except_bind_eq_ok.mp done
    obtain ⟨fits, held⟩ := cell.ok row a here
    obtain ⟨others, shown⟩ := (rest a).ok row b later
    exact ⟨List.forall_mem_cons.mpr ⟨fits, others⟩, shown held⟩
  error row fault stopped := by
    rw [firstFault_cons]
    cases here : read row with
    | error found =>
        rw [here] at stopped
        cases stopped
        exact .inl (cell.error row _ here)
    | ok a =>
        rw [here] at stopped
        exact .inr ⟨(cell.ok row a here).1, (rest a).error row fault stopped⟩

end Readers

/-! ### Cells -/

/-- A cell that holds an integer or nothing. -/
def Cell.ofInteger? : Option Int → Cell
  | none => .null
  | some value => .integer value

/-- The number in a cell, if there is one. -/
inductive HoldsNumber : Cell → Option Float → Prop where
  | null : HoldsNumber .null none
  | integer (value : Int) : HoldsNumber (.integer value) (some (Float.ofInt value))
  | real (value : Float) : HoldsNumber (.real value) (some value)

/-- Which reader of a cell takes it is told by what the reader makes of each kind of cell. -/
theorem TakesCell.of_cells {α : Type} {slot : Slot} {Holds : Cell → α → Prop}
    {read : NamedRow → Except Fault α}
    (unread : ∀ row fault, row.cell slot.position = .error fault → read row = .error fault)
    (taken : ∀ row cell, row.cell slot.position = .ok cell → slot.demand.takes cell.kind = true →
      ∃ a, read row = .ok a ∧ Holds cell a)
    (refused : ∀ row cell, row.cell slot.position = .ok cell →
      slot.demand.takes cell.kind = false → read row = .error (row.misfit slot.position cell)) :
    TakesCell slot Holds read := by
  have verdict (row : NamedRow) :
      (∃ a, read row = .ok a ∧ slot.Fits row ∧
        ∃ cell, row.cells[slot.position]? = some cell ∧ Holds cell a) ∨
      ∃ fault, read row = .error fault ∧ slot.Refuses row fault := by
    cases here : row.cells[slot.position]? with
    | none =>
        have absent : row.cell slot.position = .error (.columnIndex slot.position) := by
          rw [NamedRow.cell, here]
        exact .inr ⟨_, unread row _ absent, .missing here⟩
    | some cell =>
        have found : row.cell slot.position = .ok cell := by rw [NamedRow.cell, here]
        cases fits : slot.demand.takes cell.kind with
        | true =>
            obtain ⟨a, done, held⟩ := taken row cell found fits
            exact .inl ⟨a, done, ⟨cell, here, fits⟩, cell, rfl, held⟩
        | false => exact .inr ⟨_, refused row cell found fits, .misfit here fits⟩
  constructor
  · intro row a done
    rcases verdict row with ⟨b, done', fits, held⟩ | ⟨fault, stopped, -⟩
    · cases done.symm.trans done'
      exact ⟨fits, held⟩
    · cases done.symm.trans stopped
  · intro row fault stopped
    rcases verdict row with ⟨b, done, -⟩ | ⟨fault', stopped', refuses⟩
    · cases stopped.symm.trans done
    · cases stopped.symm.trans stopped'
      exact refuses

/-- An integer is read where one is stored. -/
theorem takes_integer (position : Nat) :
    TakesCell ⟨position, .integer⟩ (fun cell value => cell = .integer value)
      (·.integer position) := by
  apply TakesCell.of_cells
  · intro row fault absent
    rw [NamedRow.integer, absent]
    rfl
  · intro row cell found fits
    rw [NamedRow.integer, found]
    cases cell with
    | integer value => exact ⟨value, rfl, rfl⟩
    | _ => cases fits
  · intro row cell found wrong
    rw [NamedRow.integer, found]
    cases cell with
    | integer => cases wrong
    | _ => rfl

/-- A missing integer is read as well. -/
theorem takes_integer? (position : Nat) :
    TakesCell ⟨position, .integerOrNull⟩ (fun cell value => cell = .ofInteger? value)
      (·.integer? position) := by
  apply TakesCell.of_cells
  · intro row fault absent
    rw [NamedRow.integer?, absent]
    rfl
  · intro row cell found fits
    rw [NamedRow.integer?, found]
    cases cell with
    | null => exact ⟨none, rfl, rfl⟩
    | integer value => exact ⟨some value, rfl, rfl⟩
    | _ => cases fits
  · intro row cell found wrong
    rw [NamedRow.integer?, found]
    cases cell with
    | null => cases wrong
    | integer => cases wrong
    | _ => rfl

/-- A number is read from an integer, a real or nothing. -/
theorem takes_number? (position : Nat) :
    TakesCell ⟨position, .numberOrNull⟩ HoldsNumber (·.number? position) := by
  apply TakesCell.of_cells
  · intro row fault absent
    rw [NamedRow.number?, absent]
    rfl
  · intro row cell found fits
    rw [NamedRow.number?, found]
    cases cell with
    | null => exact ⟨none, rfl, .null⟩
    | integer value => exact ⟨_, rfl, .integer value⟩
    | real value => exact ⟨_, rfl, .real value⟩
    | _ => cases fits
  · intro row cell found wrong
    rw [NamedRow.number?, found]
    cases cell with
    | null => cases wrong
    | integer => cases wrong
    | real => cases wrong
    | _ => rfl

/-- A text is read where one is stored. -/
theorem takes_text (position : Nat) :
    TakesCell ⟨position, .text⟩ (fun cell value => cell = .text value) (·.text position) := by
  apply TakesCell.of_cells
  · intro row fault absent
    rw [NamedRow.text, absent]
    rfl
  · intro row cell found fits
    rw [NamedRow.text, found]
    cases cell with
    | text value => exact ⟨value, rfl, rfl⟩
    | _ => cases fits
  · intro row cell found wrong
    rw [NamedRow.text, found]
    cases cell with
    | text => cases wrong
    | _ => rfl

/-! ### All rows -/

/-- Reading the rows of an answer is all or nothing: a record for each row, in their order, if all
rows fit and no fault of the database comes after them. Otherwise it is the fault of the first row
that does not fit, or that of the database behind rows that all fit. -/
structure AllOrNothing {α : Type} (order : List Slot) (Shows : NamedRow → α → Prop)
    (rows : List NamedRow) (fault? : Option Fault) (read : Except Fault (List α)) : Prop where
  returns : (∃ records, read = .ok records) ↔ (∀ row ∈ rows, RowFits order row) ∧ fault? = none
  shown : ∀ records, read = .ok records → List.Forall₂ Shows rows records
  first : ∀ fault, read = .error fault ↔
    (∃ front row back, rows = front ++ row :: back ∧ (∀ other ∈ front, RowFits order other) ∧
      FirstFault order row fault) ∨
    (∀ row ∈ rows, RowFits order row) ∧ fault? = some fault

section Rows

variable {α : Type} {order : List Slot} {Shows : NamedRow → α → Prop}
  {read : NamedRow → Except Fault α}

/-- A record is read exactly from the rows whose cells all fit. -/
theorem Takes.returns (takes : Takes order Shows read) {row : NamedRow} :
    (∃ a, read row = .ok a) ↔ RowFits order row := by
  constructor
  · rintro ⟨a, done⟩
    exact (takes.ok row a done).1
  · intro fits
    cases stopped : read row with
    | ok a => exact ⟨a, rfl⟩
    | error fault => exact absurd fits (takes.error row fault stopped).not_fits

/-- Otherwise it is the first fault in the order of reading. -/
theorem Takes.stops (takes : Takes order Shows read) {row : NamedRow} {fault : Fault} :
    read row = .error fault ↔ FirstFault order row fault := by
  constructor
  · exact takes.error row fault
  · intro first
    cases stopped : read row with
    | ok a => exact absurd (takes.ok row a stopped).1 first.not_fits
    | error found => rw [(takes.error row found stopped).unique first]

/-- Row by row, a reader that keeps to its slots gives all records or the first fault. -/
theorem Takes.allOrNothing {World : Type} (takes : Takes order Shows read) (answer : Answer World)
    (columns : List String) : AllOrNothing order Shows (answer.namedRows columns) answer.fault?
      (answer.readAll columns read).1 := by
  constructor
  · simp only [Answer.readAll_eq_ok, exists_and_right, ← mapM_eq_ok_iff, mapM_ok_iff, takes.returns]
  · intro records done
    obtain ⟨each, -⟩ := Answer.readAll_eq_ok.mp done
    exact each.imp fun row record here => (takes.ok row record here).2
  · intro fault
    simp only [Answer.readAll_eq_error, takes.returns, takes.stops]

end Rows

/-! ### The records -/

/-- The slots for the times of a transfer. -/
def timesSlots : List Slot := [⟨0, .integer⟩, ⟨1, .integerOrNull⟩, ⟨2, .integerOrNull⟩]

/-- The row shows the times. -/
structure ShowsTimes (row : NamedRow) (times : TransferTimes) : Prop where
  queued : row.cells[0]? = some (.integer times.queuedAt)
  started : row.cells[1]? = some (.ofInteger? times.startedAt)
  finished : row.cells[2]? = some (.ofInteger? times.finishedAt)

/-- The slots for the size of a file. -/
def sizeSlots : List Slot := [⟨0, .integer⟩]

/-- The row shows the size. -/
structure ShowsSize (row : NamedRow) (size : FileSize) : Prop where
  bytes : row.cells[0]? = some (.integer size.bytes)

/-- The slots for the lifetime of a replica. -/
def lifetimeSlots : List Slot := [⟨0, .text⟩, ⟨1, .integer⟩, ⟨2, .integerOrNull⟩]

/-- The row shows the lifetime. -/
structure ShowsLifetime (row : NamedRow) (lifetime : ReplicaLifetime) : Prop where
  element : row.cells[0]? = some (.text lifetime.storageElement)
  created : row.cells[1]? = some (.integer lifetime.createdAt)
  removed : row.cells[2]? = some (.ofInteger? lifetime.removedAt)

/-- The slots for the traffic of a transfer; its amount is read first. -/
def trafficSlots : List Slot := [⟨2, .numberOrNull⟩, ⟨0, .text⟩, ⟨1, .integer⟩]

/-- The cell shows an amount; nothing is zero. -/
inductive ShowsAmount : Cell → Float → Prop where
  | null : ShowsAmount .null 0.0
  | integer (value : Int) : ShowsAmount (.integer value) (Float.ofInt value)
  | real (value : Float) : ShowsAmount (.real value) value

/-- The row shows the traffic. -/
structure ShowsTraffic (row : NamedRow) (traffic : TransferTraffic) : Prop where
  element : row.cells[0]? = some (.text traffic.storageElement)
  finished : row.cells[1]? = some (.integer traffic.finishedAt)
  amount : ∃ cell, row.cells[2]? = some cell ∧ ShowsAmount cell traffic.traffic

/-- The times of a transfer are read in the order of their columns. -/
theorem takes_transferTimes : Takes timesSlots ShowsTimes NamedRow.transferTimes := by
  refine Takes.step (takes_integer 0) fun queuedAt => ?_
  refine Takes.step (takes_integer? 1) fun startedAt => ?_
  refine Takes.step (takes_integer? 2) fun finishedAt => ?_
  refine Takes.done ?_
  rintro row ⟨_, finished, rfl⟩ ⟨_, started, rfl⟩ ⟨_, queued, rfl⟩
  exact ⟨queued, started, finished⟩

theorem takes_fileSize : Takes sizeSlots ShowsSize NamedRow.fileSize := by
  refine Takes.step (takes_integer 0) fun bytes => ?_
  refine Takes.done ?_
  rintro row ⟨_, here, rfl⟩
  exact ⟨here⟩

theorem takes_replicaLifetime : Takes lifetimeSlots ShowsLifetime NamedRow.replicaLifetime := by
  refine Takes.step (takes_text 0) fun storageElement => ?_
  refine Takes.step (takes_integer 1) fun createdAt => ?_
  refine Takes.step (takes_integer? 2) fun removedAt => ?_
  refine Takes.done ?_
  rintro row ⟨_, removed, rfl⟩ ⟨_, created, rfl⟩ ⟨_, element, rfl⟩
  exact ⟨element, created, removed⟩

theorem HoldsNumber.showsAmount {cell : Cell} {number : Option Float}
    (held : HoldsNumber cell number) : ShowsAmount cell (number.getD 0.0) := by
  cases held with
  | null => exact .null
  | integer value => exact .integer value
  | real value => exact .real value

/-- The traffic of a transfer is read with its amount before its sites. -/
theorem takes_transferTraffic : Takes trafficSlots ShowsTraffic NamedRow.transferTraffic := by
  refine Takes.step (takes_number? 2) fun traffic => ?_
  refine Takes.step (takes_text 0) fun storageElement => ?_
  refine Takes.step (takes_integer 1) fun finishedAt => ?_
  refine Takes.done ?_
  rintro row ⟨_, finished, rfl⟩ ⟨_, element, rfl⟩ ⟨cell, here, held⟩
  exact ⟨element, finished, cell, here, held.showsAmount⟩

end Store

namespace Session

open Store

variable [Engine] {α : Type}

/-- The columns and the rows that a query of the catalog gives, unless it is refused before. -/
def rowsOf (session : Session) (files : Files) (catalog : Sql.Catalog) (query : Sql.ChartQuery) :
    Except Error (List String × Answer (World Engine.Connection)) := do
  let text ← catalog.get files query
  match Engine.prepare ⟨session.home, files⟩ text.sql with
  | (.error fault, _) => throw (.database fault)
  | (.ok statement, left) =>
    match takesNothing (Engine.parameters statement) with
    | .error fault => throw (.database fault)
    | .ok () => return (Engine.columns statement, Engine.run statement (fun _ => .null) left)

/-- The records of a query are its rows, read one after the other. -/
theorem records_eq (session : Session) (files : Files) (catalog : Sql.Catalog)
    (query : Sql.ChartQuery) (read : NamedRow → Except Fault α) :
    (session.records files catalog query read).answer =
      session.rowsOf files catalog query >>= fun run =>
        (run.2.readAll run.1 read).1.mapError .database := by
  rw [records, rowsOf]
  cases catalog.get files query with
  | error error => rfl
  | ok text =>
    rcases session.ask_cases files text takesNothing (fun _ => .null) read with
      ⟨fault, left, prepared, asked⟩ | ⟨statement, left, prepared, ⟨fault, untaken, asked⟩ |
        ⟨taken, asked⟩⟩
    · simp only [asked, bind, Except.bind, prepared]
      rfl
    · simp only [asked, bind, Except.bind, prepared, untaken]
      rfl
    · simp only [asked, bind, Except.bind, prepared, taken]
      rfl

/-- Reading what a query of the catalog gives is all or nothing: the operation reads the rows that
come of the query, whatever they are. -/
structure ReadsAll (query : Sql.ChartQuery) (order : List Slot) (Shows : NamedRow → α → Prop)
    (read : NamedRow → Except Fault α)
    (operation : Session → Files → Sql.Catalog → Call (List α)) : Prop where
  rows : ∀ (answer : Answer (World Engine.Connection)) (columns : List String),
    AllOrNothing order Shows (answer.namedRows columns) answer.fault?
      (answer.readAll columns read).1
  run : ∀ session files catalog, (operation session files catalog).answer =
    session.rowsOf files catalog query >>= fun run =>
      (run.2.readAll run.1 read).1.mapError .database

/-- What holds of one row's reading holds of the whole result's. -/
theorem readsAll_records {order : List Slot} {Shows : NamedRow → α → Prop}
    {read : NamedRow → Except Fault α} (query : Sql.ChartQuery) (takes : Takes order Shows read) :
    ReadsAll query order Shows read fun session files catalog =>
      session.records files catalog query read :=
  ⟨takes.allOrNothing, fun session files catalog => session.records_eq files catalog query read⟩

/-- **Rows are read as records all or nothing.** For the times of transfers, the sizes of files, the
lifetimes of replicas and the traffic of transfers alike: if each row has a cell of the right
storage class in each slot of the record, the answer has one record for each row, in the order of
the rows, and each shows the cells of its row. Otherwise the answer is a fault and no record: that
of the first row that does not fit, at the slot that is looked at first in it. The columns are
looked at from the left, except that the amount of a transfer comes before its element and its time.
A fault of the database itself is told if all rows in front of it fit. -/
theorem records_all_or_nothing :
    ReadsAll .transferTimes timesSlots ShowsTimes NamedRow.transferTimes transferTimes ∧
    ReadsAll .fileSizes sizeSlots ShowsSize NamedRow.fileSize fileSizes ∧
    ReadsAll .replicaLifetimes lifetimeSlots ShowsLifetime NamedRow.replicaLifetime
      replicaLifetimes ∧
    ReadsAll .transferTraffic trafficSlots ShowsTraffic NamedRow.transferTraffic
      transferTraffic := by
  refine ⟨?times, ?sizes, ?lifetimes, ?traffic⟩
  case times => exact readsAll_records _ takes_transferTimes
  case sizes => exact readsAll_records _ takes_fileSize
  case lifetimes => exact readsAll_records _ takes_replicaLifetime
  case traffic => exact readsAll_records _ takes_transferTraffic

-- The middle cell fits; of the two others, the last one is told of.
omit [Engine] in
example : ((Answer.mk [([.null, .integer 1, .text "x"], ())] none ()).readAll
    ["element", "finished", "amount"] NamedRow.transferTraffic).1 =
    .error (.columnType .text 2 "amount") := rfl

end Session

end GridReport
