import GridReport.Proofs.Binding
import GridReport.Proofs.Calls

/-!
What the values given for the placeholders of a query decide.

The names are checked before the database is asked. After that the values are bound one by one, so
that of several values for one name the last one stays, and the run takes no more of them than what
each parameter is bound to. The numbers are read while the rows come, so a row that does not start
with one and a fault of the database compete: what comes first is told.

* `checkParameters_eq_error` — the refusals of the check.
* `lookup_bindings` — what is bound to a name.
* `number?_first` — the number that a row starts with.
* `queryValues_decides` — the answer for any list of parameters, whatever the database.
* `queryValues_order` — a query for which their order shows.
-/

namespace GridReport

namespace Store

/-! ### Numbers in the first column -/

/-- The double that is read from a number. -/
def Cell.double? : Cell → Option Float
  | .integer value => some (.ofInt value)
  | .real value => some value
  | _ => none

/-- The first cell of a row is a number or nothing. -/
def Numeric (row : List Cell) : Prop :=
  ∃ cell, row.head? = some cell ∧ (cell.kind = .null ∨ cell.kind = .integer ∨ cell.kind = .real)

/-- The number in the first cell of a row, if there is one. -/
def firstNumber? (row : List Cell) : Option Float := row.head?.bind Cell.double?

/-- A row is read as a number exactly if it starts with one or with nothing. -/
theorem NamedRow.number?_first {columns : List String} {row : List Cell} :
    (Numeric row → NamedRow.number? ⟨columns, row⟩ 0 = .ok (firstNumber? row)) ∧
      (¬Numeric row → ∀ number, NamedRow.number? ⟨columns, row⟩ 0 ≠ .ok number) := by
  cases row with
  | nil => simp [Numeric, number?, cell, bind, Except.bind]
  | cons first rest =>
    cases first <;>
      simp [Numeric, number?, cell, bind, Except.bind, pure, Except.pure, throw, throwThe,
        MonadExceptOf.throw, Cell.kind, firstNumber?, Cell.double?]

end Store

/-! ### The first name that is not known -/

/-- The name is the first one of a list that is not known. -/
def FirstOutside (known names : List String) (name : String) : Prop :=
  ∃ front later, names = front ++ name :: later ∧ (∀ other ∈ front, other ∈ known) ∧ name ∉ known

section Outside

variable {known names : List String}

/-- The search finds the first name outside. -/
theorem find?_outside {name : String} :
    (names.find? fun name => !known.contains name) = some name ↔ FirstOutside known names name := by
  rw [List.find?_eq_some_iff_append, FirstOutside]
  constructor
  · rintro ⟨outside, front, later, split, inside⟩
    exact ⟨front, later, split, by simpa using inside, by simpa using outside⟩
  · rintro ⟨front, later, split, inside, outside⟩
    exact ⟨by simpa using outside, front, later, split, by simpa using inside⟩

theorem find?_inside :
    (names.find? fun name => !known.contains name) = none ↔ ∀ name ∈ names, name ∈ known := by
  simp [List.find?_eq_none]

/-- There is such a name unless all of them are known. -/
theorem exists_firstOutside :
    (∃ name, FirstOutside known names name) ↔ ¬∀ name ∈ names, name ∈ known := by
  simp only [← find?_outside, ← find?_inside, ← Option.isSome_iff_exists,
    ← Option.isSome_iff_ne_none]

end Outside

namespace Session

variable {query : Sql.ReadQuery} {parameters : List Parameter}

/-! ### The check -/

/-- The values are given for the placeholders of the query, and for nothing else. -/
def Fits (query : Sql.ReadQuery) (parameters : List Parameter) : Prop :=
  ∀ name, name ∈ query.placeholders ↔ name ∈ parameters.map Parameter.name

/-- Why values do not fit: there is a placeholder without a value, of which the first one counts, or
all have values and the first value without a placeholder counts. -/
inductive Misfit (query : Sql.ReadQuery) (parameters : List Parameter) : ConfigurationCause → Prop
  | unbound {name : String}
      (first : FirstOutside (parameters.map Parameter.name) query.placeholders name) :
      Misfit query parameters (.unboundParameter name)
  | unknown {name : String}
      (given : ∀ placeholder ∈ query.placeholders, placeholder ∈ parameters.map Parameter.name)
      (first : FirstOutside query.placeholders (parameters.map Parameter.name) name) :
      Misfit query parameters (.unknownParameter name)

/-- All misfits are told at the same field. -/
theorem Misfit.field_eq {cause : ConfigurationCause} (misfit : Misfit query parameters cause) :
    cause.field = "param" := by
  cases misfit <;> rfl

/-- The check tells the misfit, and there is at most one. -/
theorem checkParameters_eq_error {cause : ConfigurationCause} :
    checkParameters query parameters = .error cause ↔ Misfit query parameters cause := by
  rw [checkParameters]
  constructor
  · intro refused
    split at refused
    · rename_i missing
      cases refused
      exact .unbound (find?_outside.mp missing)
    · rename_i all_given
      split at refused
      · rename_i unknown
        cases refused
        exact .unknown (find?_inside.mp all_given) (find?_outside.mp unknown)
      · cases refused
  · intro misfit
    cases misfit with
    | unbound first => simp only [find?_outside.mpr first]
    | unknown given first => simp only [find?_inside.mpr given, find?_outside.mpr first]

/-- Values fit exactly if there is no reason against them. -/
theorem exists_misfit : (∃ cause, Misfit query parameters cause) ↔ ¬Fits query parameters := by
  rw [Fits, ← checkParameters_eq_ok]
  simp only [← checkParameters_eq_error]
  cases checkParameters query parameters with
  | error cause => simp
  | ok => simp

/-! ### Values by name -/

/-- The last value that is given for a name. -/
def lastValue (name : String) : List Parameter → Option Store.Cell
  | [] => none
  | head :: tail => (lastValue name tail).or (if head.name = name then some head.value else none)

/-- The same names have values, and each of them the same last one. -/
def SameLast (others parameters : List Parameter) : Prop :=
  ∀ name, lastValue name others = lastValue name parameters

/-- Of two lists the later one counts first. -/
@[simp] theorem lastValue_append {name : String} {others : List Parameter} :
    lastValue name (parameters ++ others) =
      (lastValue name others).or (lastValue name parameters) := by
  induction parameters with
  | nil => simp [lastValue]
  | cons head tail ih => rw [List.cons_append, lastValue, ih, lastValue, Option.or_assoc]

theorem isSome_lastValue {name : String} :
    (lastValue name parameters).isSome ↔ name ∈ parameters.map Parameter.name := by
  induction parameters with
  | nil => simp [lastValue]
  | cons head tail ih =>
    rw [lastValue, Option.isSome_or, Bool.or_eq_true, ih, List.map_cons, List.mem_cons, or_comm]
    refine or_congr_left ?_
    by_cases is : head.name = name
    · simp [is]
    · simp [is, Ne.symm is]

theorem SameLast.mem_names {others : List Parameter} (same : SameLast others parameters)
    {name : String} :
    name ∈ others.map Parameter.name ↔ name ∈ parameters.map Parameter.name := by
  rw [← isSome_lastValue, same name, isSome_lastValue]

/-- Whether values fit depends on their names alone. -/
theorem SameLast.fits {others : List Parameter} (same : SameLast others parameters) :
    Fits query others ↔ Fits query parameters :=
  forall_congr' fun _ => by rw [same.mem_names]

/-- A value before another one for its name makes no difference. -/
theorem sameLast_drop {front later : List Parameter} {parameter : Parameter}
    (again : parameter.name ∈ later.map Parameter.name) :
    SameLast (front ++ later) (front ++ parameter :: later) := by
  intro name
  rw [lastValue_append, lastValue_append, lastValue]
  by_cases is : parameter.name = name
  · obtain ⟨value, last⟩ := Option.isSome_iff_exists.mp (isSome_lastValue.mpr (is ▸ again))
    simp [last]
  · simp [is]

/-- Neither does it which of two values for different names comes first. -/
theorem sameLast_swap {front later : List Parameter} {first second : Parameter}
    (differ : first.name ≠ second.name) :
    SameLast (front ++ second :: first :: later) (front ++ first :: second :: later) := by
  intro name
  simp only [lastValue_append, lastValue]
  by_cases is : first.name = name
  · subst is
    simp [differ.symm]
  · simp [is]

/-- A value as the database takes it: what is no number is nothing. -/
def bound : Store.Cell → Store.Cell
  | .real value => .ofFloat value
  | other => other

/-- The first value is bound first, so it is found last. -/
theorem bindings_cons {head : Parameter} :
    bindings (head :: parameters) = bindings parameters ++ [(head.name, bound head.value)] := by
  obtain ⟨name, value⟩ := head
  rw [bindings, bindings, List.map_cons, List.reverse_cons]
  cases value <;> rfl

/-- What is bound to a name is the last value that is given for it. -/
theorem lookup_bindings {name : String} :
    (bindings parameters).lookup name = (lastValue name parameters).map bound := by
  induction parameters with
  | nil => rfl
  | cons head tail ih =>
    rw [bindings_cons, List.lookup_append, ih, lastValue, Option.map_or, List.lookup_cons]
    congr 1
    by_cases is : head.name = name
    · simp [is]
    · rw [beq_eq_false_iff_ne.mpr (Ne.symm is), if_neg is]
      rfl

/-- What each name is bound to is told by the last values. -/
theorem valueFor_eq {name : String} :
    valueFor parameters name = ((lastValue name parameters).map bound).getD .null := by
  rw [valueFor, lookup_bindings]

/-- Lists with the same last values bind each name to the same. -/
theorem SameLast.valueFor_eq {others : List Parameter} (same : SameLast others parameters) :
    valueFor others = valueFor parameters := by
  funext name
  rw [Session.valueFor_eq, Session.valueFor_eq, same name]

/-! ### The names of the statement -/

section Names

variable {known : List String}

theorem find?_parameter :
    ((parameters.find? fun parameter => !known.contains parameter.name).map Parameter.name) =
      (parameters.map Parameter.name).find? fun name => !known.contains name := by
  rw [List.find?_map]
  rfl

/-- Where all names are known, none is refused. -/
theorem takesNames_of_known (all : ∀ name ∈ parameters.map Parameter.name, name ∈ known) :
    takesNames parameters known = .ok () := by
  have none_unknown :
      (parameters.find? fun parameter => !known.contains parameter.name) = none := by
    rw [← Option.map_eq_none_iff, find?_parameter, find?_inside]
    exact all
  rw [takesNames, none_unknown]

/-- A name that the database does not know is refused, the first one in the list. -/
theorem takesNames_of_unknown {name : String}
    (first : FirstOutside known (parameters.map Parameter.name) name) :
    takesNames parameters known = .error (.parameterName name) := by
  have found := find?_outside.mpr first
  rw [← find?_parameter] at found
  obtain ⟨parameter, is_first, rfl⟩ := Option.map_eq_some_iff.mp found
  rw [takesNames, is_first]

end Names

/-! ### The answer -/

/-- Of several values for one name only the last counts, and the order of the names does not. -/
structure OnlyLastCounts {α : Type} (answer : List Parameter → α) (parameters : List Parameter) :
    Prop where
  same_last {others : List Parameter} (same : SameLast others parameters) :
    answer others = answer parameters
  drop {front later : List Parameter} {parameter : Parameter}
    (split : parameters = front ++ parameter :: later)
    (again : parameter.name ∈ later.map Parameter.name) :
    answer (front ++ later) = answer parameters
  swap {front later : List Parameter} {first second : Parameter}
    (split : parameters = front ++ first :: second :: later) (differ : first.name ≠ second.name) :
    answer (front ++ second :: first :: later) = answer parameters

theorem OnlyLastCounts.of_sameLast {α : Type} {answer : List Parameter → α}
    (same_last : ∀ others, SameLast others parameters → answer others = answer parameters) :
    OnlyLastCounts answer parameters where
  same_last {others} same := same_last others same
  drop split again := same_last _ (split ▸ sameLast_drop again)
  swap split differ := same_last _ (split ▸ sameLast_swap differ)

theorem length_filterMap_add_countP {α β : Type} (f : α → Option β) (items : List α) :
    (items.filterMap f).length + items.countP (fun a => (f a).isNone) = items.length := by
  induction items with
  | nil => rfl
  | cons head tail ih =>
    cases given : f head with
    | none => simp [given, ← ih, Nat.add_assoc]
    | some b => simp [given, ← ih, Nat.add_right_comm]

/-- The numbers that rows start with, and the number of rows that start with nothing. -/
def firstNumbers (rows : List (List Store.Cell)) : QueryValues :=
  ⟨rows.filterMap Store.firstNumber?, rows.countP fun row => (Store.firstNumber? row).isNone⟩

/-- Rows that start with nothing are left out and counted. -/
theorem numbersOf_map (rows : List (List Store.Cell)) :
    numbersOf (rows.map Store.firstNumber?) = firstNumbers rows := by
  have counted := length_filterMap_add_countP Store.firstNumber? rows
  rw [numbersOf, firstNumbers, List.filterMap_map, Function.id_comp, List.length_map]
  congr 1
  omega

/-- The numbers of rows are read while the rows come. -/
structure Reads {World : Type} (found : Except Error QueryValues) (columns : List String)
    (answer : Store.Answer World) : Prop where
  /-- Rows that start with numbers or with nothing give their numbers, in the order of the rows. -/
  numbers (numeric : ∀ row ∈ answer.rows, Store.Numeric row.1) (ended : answer.fault? = none) :
    found = .ok (firstNumbers (answer.rows.map Prod.fst))
  /-- The first other row leaves no numbers at all, whatever comes after it. -/
  odd {front back : List (List Store.Cell × World)} {row : List Store.Cell × World}
    (split : answer.rows = front ++ row :: back)
    (numeric : ∀ other ∈ front, Store.Numeric other.1) (other : ¬Store.Numeric row.1) :
    ∃ fault, Store.NamedRow.number? ⟨columns, row.1⟩ 0 = .error fault ∧
      found = .error (.database fault)
  /-- A fault of the database is told if all rows in front of it could be read. -/
  fault {fault : Store.Fault} (numeric : ∀ row ∈ answer.rows, Store.Numeric row.1)
    (broken : answer.fault? = some fault) : found = .error (.database fault)

/-- The numbers are those of the rows up to the first misfit or fault. -/
theorem reads_readAll {World : Type} (columns : List String) (answer : Store.Answer World) :
    Reads (((answer.readAll columns fun row => row.number? 0).1.mapError Error.database).map
      numbersOf) columns answer := by
  let name (row : List Store.Cell × World) : Store.NamedRow := ⟨columns, row.1⟩
  have fits (rows : List (List Store.Cell × World)) (numeric : ∀ row ∈ rows, Store.Numeric row.1) :
      ∀ row ∈ rows.map name, row.number? 0 = .ok (Store.firstNumber? row.cells) := by
    intro named here
    obtain ⟨row, listed, rfl⟩ := List.mem_map.mp here
    exact Store.NamedRow.number?_first.1 (numeric row listed)
  constructor
  · intro numeric ended
    have done : (answer.readAll columns fun row => row.number? 0).1 =
        .ok ((answer.rows.map Prod.fst).map Store.firstNumber?) := by
      rw [Store.Answer.readAll_eq, Store.Answer.namedRows, mapM_eq_map (fits _ numeric), ended]
      simp only [bind, Except.bind, List.map_map]
      rfl
    rw [done]
    exact congrArg Except.ok (numbersOf_map _)
  · intro front back row split numeric other
    cases read : Store.NamedRow.number? ⟨columns, row.1⟩ 0 with
    | ok number => exact absurd read (Store.NamedRow.number?_first.2 other number)
    | error fault =>
      refine ⟨fault, rfl, ?_⟩
      have named : answer.namedRows columns = front.map name ++ name row :: back.map name := by
        rw [Store.Answer.namedRows, split, List.map_append, List.map_cons]
      have stopped : (answer.readAll columns fun row => row.number? 0).1 = .error fault :=
        Store.Answer.readAll_eq_error.mpr
          (.inl ⟨_, _, _, named, fun other here => ⟨_, fits front numeric other here⟩, read⟩)
      rw [stopped]
      rfl
  · intro fault numeric broken
    have stopped : (answer.readAll columns fun row => row.number? 0).1 = .error fault :=
      Store.Answer.readAll_eq_error.mpr
        (.inr ⟨fun other here => ⟨_, fits answer.rows numeric other here⟩, broken⟩)
    rw [stopped]
    rfl

section Calls

variable [Engine] {session : Session} {files : Files}

/-- Values that do not fit are refused before the database is asked. -/
theorem queryValues_of_misfit {cause : ConfigurationCause}
    (misfit : Misfit query parameters cause) :
    session.queryValues files query parameters =
      session.refuse files (.configuration cause) := by
  rw [queryValues, checkParameters_eq_error.mpr misfit]

/-- Values that fit are taken to the database, and the numbers are read from what it gives. -/
theorem queryValues_of_fits (fits : Fits query parameters) :
    session.queryValues files query parameters =
      (session.ask files query (takesNames parameters) (valueFor parameters) fun row =>
        row.number? 0).map numbersOf := by
  rw [queryValues, checkParameters_eq_ok.mpr fits]

/-- A configuration error is told exactly for a misfit. -/
theorem queryValues_eq_configuration {cause : ConfigurationCause} :
    (session.queryValues files query parameters).answer = .error (.configuration cause) ↔
      Misfit query parameters cause := by
  refine ⟨fun refused => ?_, fun misfit => by rw [queryValues_of_misfit misfit, refuse]⟩
  by_cases fits : Fits query parameters
  · -- whatever the database tells is no configuration error
    rw [queryValues_of_fits fits] at refused
    rcases session.ask_cases files query (takesNames parameters) (valueFor parameters)
        (fun row => row.number? 0) with
      ⟨fault, left, -, asked⟩ | ⟨statement, left, -, ⟨fault, -, asked⟩ | ⟨-, asked⟩⟩
    · rw [asked] at refused
      cases refused
    · rw [asked] at refused
      cases refused
    · rw [asked] at refused
      simp only [finish, Call.map] at refused
      cases read : ((Engine.run statement (valueFor parameters) left).readAll
          (Engine.columns statement) fun row => row.number? 0).1 with
      | error fault =>
        rw [read] at refused
        cases refused
      | ok found =>
        rw [read] at refused
        cases refused
  · obtain ⟨found, misfit⟩ := exists_misfit.mpr fits
    rw [queryValues_of_misfit misfit] at refused
    cases refused
    exact misfit

/-- The database finds every placeholder of the query in the text, if it takes the text at all. -/
def Knows (session : Session) (files : Files) (query : Sql.ReadQuery) : Prop :=
  ∀ statement left, Engine.prepare ⟨session.home, files⟩ query.sql = (.ok statement, left) →
    ∀ name ∈ query.placeholders, name ∈ Engine.parameters statement

theorem Knows.names {statement : Engine.Statement} {left : Store.World Engine.Connection}
    (knows : session.Knows files query) (fits : Fits query parameters)
    (prepared : Engine.prepare ⟨session.home, files⟩ query.sql = (.ok statement, left)) :
    ∀ name ∈ parameters.map Parameter.name, name ∈ Engine.parameters statement :=
  fun name here => knows statement left prepared name ((fits name).mpr here)

/-- The numbers of a statement that is run with the last values. -/
theorem reads_of_known {statement : Engine.Statement} {left : Store.World Engine.Connection}
    (fits : Fits query parameters)
    (prepared : Engine.prepare ⟨session.home, files⟩ query.sql = (.ok statement, left))
    (known : ∀ name ∈ parameters.map Parameter.name, name ∈ Engine.parameters statement)
    {values : String → Store.Cell}
    (last : ∀ name, values name = ((lastValue name parameters).map bound).getD .null) :
    Reads (session.queryValues files query parameters).answer (Engine.columns statement)
      (Engine.run statement values left) := by
  obtain rfl : valueFor parameters = values := funext fun name => valueFor_eq.trans (last name).symm
  rw [queryValues_of_fits fits, ask_of_taken prepared (takesNames_of_known known)]
  exact reads_readAll _ _

/-- Where the database knows the placeholders, only last values count. -/
theorem queryValues_sameLast (fits : Fits query parameters) (knows : session.Knows files query) :
    OnlyLastCounts (session.queryValues files query) parameters := by
  refine .of_sameLast fun others same => ?_
  rw [queryValues_of_fits fits, queryValues_of_fits (same.fits.mpr fits), same.valueFor_eq]
  congr 1
  refine ask_congr fun statement left prepared => ?_
  have all := knows.names fits prepared
  have others_known := fun name here => all name (same.mem_names.mp here)
  rw [takesNames_of_known all, takesNames_of_known others_known]

/-- Where it does not, the first name that it does not know is told. -/
theorem queryValues_unknown (fits : Fits query parameters)
    (misses : ¬session.Knows files query) : ∃ statement left name,
      Engine.prepare ⟨session.home, files⟩ query.sql = (.ok statement, left) ∧
        FirstOutside (Engine.parameters statement) (parameters.map Parameter.name) name ∧
        (session.queryValues files query parameters).answer =
          .error (.database (.parameterName name)) := by
  simp only [Knows, not_forall] at misses
  obtain ⟨statement, left, prepared, placeholder, here, missing⟩ := misses
  have outside : ¬∀ name ∈ parameters.map Parameter.name, name ∈ Engine.parameters statement :=
    fun known => missing (known placeholder ((fits placeholder).mp here))
  obtain ⟨name, first⟩ := exists_firstOutside.mpr outside
  refine ⟨statement, left, name, prepared, first, ?_⟩
  rw [queryValues_of_fits fits, ask_of_untaken prepared (takesNames_of_unknown first)]
  rfl

/-- What comes of values that are taken to the database. -/
structure Asks (session : Session) (files : Files) (query : Sql.ReadQuery)
    (parameters : List Parameter) : Prop where
  /-- A text that the database refuses is refused with its fault. -/
  refused {fault : Store.Fault} {left : Store.World Engine.Connection}
    (refused : Engine.prepare ⟨session.home, files⟩ query.sql = (.error fault, left)) :
    (session.queryValues files query parameters).answer = .error (.database fault)
  /-- Where the database knows the placeholders, it runs the statement with the last values, and
  their numbers are read from the rows, -/
  reads (knows : session.Knows files query) {statement : Engine.Statement}
    {left : Store.World Engine.Connection}
    (prepared : Engine.prepare ⟨session.home, files⟩ query.sql = (.ok statement, left))
    {values : String → Store.Cell}
    (last : ∀ name, values name = ((lastValue name parameters).map bound).getD .null) :
    Reads (session.queryValues files query parameters).answer (Engine.columns statement)
      (Engine.run statement values left)
  /-- and the other values make no difference. -/
  last (knows : session.Knows files query) :
    OnlyLastCounts (session.queryValues files query) parameters
  /-- Otherwise the first name in the list that it does not know is told. -/
  unknown (misses : ¬session.Knows files query) : ∃ statement left name,
    Engine.prepare ⟨session.home, files⟩ query.sql = (.ok statement, left) ∧
      FirstOutside (Engine.parameters statement) (parameters.map Parameter.name) name ∧
      (session.queryValues files query parameters).answer =
        .error (.database (.parameterName name))

/-- **What values for placeholders decide.** Values are refused before the database is asked exactly
if their names are not those of the placeholders, for the first placeholder without a value or else
the first value without a placeholder; such a call leaves everything as it was. Of the values that
are taken to the database the last one for each name counts if the database knows the placeholders,
and what it gives is read row by row. -/
theorem queryValues_decides (session : Session) (files : Files) (query : Sql.ReadQuery)
    (parameters : List Parameter) :
    (∀ cause, (session.queryValues files query parameters).answer = .error (.configuration cause) ↔
      Misfit query parameters cause) ∧
    (∀ cause, Misfit query parameters cause → cause.field = "param" ∧
      session.queryValues files query parameters =
        ⟨.error (.configuration cause), session, files⟩) ∧
    ((∃ cause, Misfit query parameters cause) ↔ ¬Fits query parameters) ∧
    (Fits query parameters → Asks session files query parameters) := by
  refine ⟨fun _ => queryValues_eq_configuration, ?_, exists_misfit, ?_⟩
  · exact fun cause misfit => ⟨misfit.field_eq, queryValues_of_misfit misfit⟩
  · intro fits
    exact {
      refused := fun refused => by rw [queryValues_of_fits fits, ask_of_unprepared refused]; rfl
      reads := fun knows _ _ prepared _ => reads_of_known fits prepared (knows.names fits prepared)
      last := queryValues_sameLast fits
      unknown := queryValues_unknown fits }

end Calls

theorem queryValues_decides_times :
    let query : Sql.ReadQuery :=
      ⟨"SELECT filesize FROM Files WHERE createdAt > :low AND createdAt < :high", [":low", ":high"]⟩
    let files : Store.Table :=
      ⟨"Files", ["id", "createdAt", "filesize"].map (⟨·, .numeric⟩), 0,
        [⟨1, [.integer 1, .integer 10, .integer 7]⟩, ⟨2, [.integer 2, .integer 20, .null]⟩]⟩
    let session := ofMemory ⟨[files]⟩
    let low : Parameter := ⟨":low", .integer 1⟩
    let high : Parameter := ⟨":high", .integer 100⟩
    (session.queryValues .empty query [high]).answer =
        .error (.configuration (.unboundParameter ":low")) ∧
      session.queryValues .empty query [high, low] = session.queryValues .empty query [low, high] ∧
      ∃ rows : List (List Store.Cell), rows.map (List.map Store.Cell.kind) = [[.integer], [.null]] ∧
        (session.queryValues .empty query [low, high]).answer = .ok (firstNumbers rows) := by
  intro query files session low high
  obtain ⟨refused, -, -, -⟩ := queryValues_decides session .empty query [high]
  obtain ⟨-, -, -, asks⟩ := queryValues_decides session .empty query [low, high]
  have fits : Fits query [low, high] := checkParameters_eq_ok.mp (by decide)
  have unbound : Misfit query [high] (.unboundParameter ":low") :=
    .unbound ⟨[], [":high"], rfl, by simp, by decide⟩
  have run : (Engine.prepare ⟨session.home, .empty⟩ query.sql).1.toOption.map (fun statement =>
      let answer := Engine.run statement (valueFor [low, high])
        (Engine.prepare ⟨session.home, .empty⟩ query.sql).2
      (Engine.parameters statement, answer.rows.map fun row => row.1.map Store.Cell.kind,
        answer.fault?)) = some ([":low", ":high"], [[.integer], [.null]], none) := by
    decide +kernel
  rcases prepared : Engine.prepare ⟨session.home, .empty⟩ query.sql with ⟨fault | statement, left⟩
  · rw [prepared] at run
    cases run
  · rw [prepared] at run
    obtain ⟨parameters, rows, ended⟩ : _ ∧ _ ∧ _ := by simpa using Option.some.inj run
    have knows : session.Knows .empty query := by
      intro other left' again name here
      rw [prepared] at again
      cases again
      exact parameters ▸ here
    have split : [low, high] = [] ++ low :: high :: [] := rfl
    refine ⟨(refused _).mpr unbound, ((asks fits).last knows).swap split (by decide), ?_⟩
    refine ⟨(Engine.run statement (valueFor [low, high]) left).rows.map Prod.fst, ?_, ?_⟩
    · rw [List.map_map]
      exact rows
    · refine ((asks fits).reads knows prepared fun _ => valueFor_eq).numbers ?_ ended
      intro row here
      have kind : row.1.map Store.Cell.kind ∈ [[Store.CellKind.integer], [.null]] :=
        rows ▸ List.mem_map_of_mem here
      rcases row with ⟨_ | ⟨cell, others⟩, _⟩
      · simp at kind
      · have known : cell.kind = .integer ∨ cell.kind = .null := by
          simp at kind
          tauto
        exact ⟨cell, rfl, known.elim (fun is => .inr (.inl is)) .inl⟩

/-- The database ends a comment where the check is still inside another one, and finds none of the
placeholders: the first name in the list is told, so the order of the values shows. -/
theorem queryValues_order :
    let text := "SELECT filesize FROM Files WHERE filesize > /* /* */ ' */ :low AND filesize < " ++
      ":high -- '"
    let query : Sql.ReadQuery := ⟨text, [":low", ":high"]⟩
    let files : Store.Table :=
      ⟨"Files", ["id", "createdAt", "filesize"].map (⟨·, .numeric⟩), 0,
        [⟨1, [.integer 1, .integer 0, .integer 10]⟩]⟩
    let session := ofMemory ⟨[files]⟩
    let low : Parameter := ⟨":low", .integer 1⟩
    let high : Parameter := ⟨":high", .integer 100⟩
    Sql.ReadQuery.ofText text = .ok query ∧ Fits query [low, high] ∧ low.name ≠ high.name ∧
      (session.queryValues .empty query [low, high]).answer =
        .error (.database (.parameterName ":low")) ∧
      (session.queryValues .empty query [high, low]).answer =
        .error (.database (.parameterName ":high")) := by
  intro text query files session low high
  have fits : Fits query [low, high] := checkParameters_eq_ok.mp (by decide)
  have again : Fits query [high, low] := checkParameters_eq_ok.mp (by decide)
  have found : (Engine.prepare ⟨session.home, .empty⟩ query.sql).1.toOption.map
      Engine.parameters = some [] := by decide +kernel
  rcases prepared : Engine.prepare ⟨session.home, .empty⟩ query.sql with ⟨fault | statement, left⟩
  · rw [prepared] at found
    cases found
  · rw [prepared] at found
    have none_known : Engine.parameters statement = [] := Option.some.inj found
    have low_first : FirstOutside (Engine.parameters statement)
        ([low, high].map Parameter.name) ":low" :=
      ⟨[], [":high"], rfl, by simp, by simp [none_known]⟩
    have high_first : FirstOutside (Engine.parameters statement)
        ([high, low].map Parameter.name) ":high" :=
      ⟨[], [":low"], rfl, by simp, by simp [none_known]⟩
    refine ⟨by decide +kernel, fits, by decide, ?_, ?_⟩
    · rw [queryValues_of_fits fits, ask_of_untaken prepared (takesNames_of_unknown low_first)]
      rfl
    · rw [queryValues_of_fits again, ask_of_untaken prepared (takesNames_of_unknown high_first)]
      rfl

end Session

end GridReport
