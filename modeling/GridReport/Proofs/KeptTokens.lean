import GridReport.Sql.Grammar.Name
import Mathlib.Data.List.Infix

/-!
Steps of the grammar that neither lose placeholders nor make them up.

A step takes tokens off the front of a text. What is proved of it is a triple: the placeholders that
are held in front of it, with those that are written in the tokens to come, are the ones that its
result keeps, with those still to come.

* `Keeps.bind`, `Passes.bind`, `Keeps.thread` — one step after another.
* `Keeps.take`, `takeAs_keeps`, `keyword?_passes`, `symbol?_passes` — single tokens.
* `Keeps.commaList`, `Keeps.many`, `Keeps.after?` — items in a row, and clauses that may be missing.
* `path_passes`, `typeName_passes` — names and types, which hold no placeholder.
-/

namespace GridReport.Sql

/-! ### Placeholders in tokens -/

/-- The name that a token gives to a placeholder whose sign stands in front of it. -/
def Token.placeholderName? : Token → Option String
  | .word given => some given.value
  | .number digits false => some digits
  | _ => none

/-- The placeholder that a token starts, with the token after it. -/
def Token.placeholder? (next : Option Token) : Token → Option String
  | .positional mark => some mark
  | .symbol ":" => (next.bind placeholderName?).map (":" ++ ·)
  | .symbol "@" => (next.bind placeholderName?).map ("@" ++ ·)
  | _ => none

/-- The token may start a placeholder. -/
def Token.startsPlaceholder : Token → Bool
  | .positional _ => true
  | .symbol sign => sign == ":" || sign == "@"
  | _ => false

/-- The placeholders that are written in tokens. -/
def written : List Lexeme → List String
  | [] => []
  | head :: tail => (head.token.placeholder? (tail.head?.map Lexeme.token)).toList ++ written tail

/-- Only a mark or a sign starts a placeholder, whatever comes next. -/
theorem Token.placeholder?_eq_none {token : Token} (plain : token.startsPlaceholder = false)
    (next : Option Token) : token.placeholder? next = none := by
  unfold placeholder?
  split <;> simp_all [startsPlaceholder]

/-- A word that is looked for as a keyword starts no placeholder. -/
theorem Token.plain_of_keyword {token : Token} (word : token.keyword ≠ "") :
    token.startsPlaceholder = false := by
  cases token <;> simp_all [keyword, startsPlaceholder]

/-- The name of a placeholder does not start another one. -/
theorem Token.plain_of_placeholderName {token : Token} {name : String}
    (known : token.placeholderName? = some name) : token.startsPlaceholder = false := by
  cases token <;> simp_all [placeholderName?, startsPlaceholder]

theorem written_cons_of_plain {head : Lexeme} {tail : List Lexeme}
    (plain : head.token.startsPlaceholder = false) : written (head :: tail) = written tail := by
  simp [written, Token.placeholder?_eq_none plain]

/-! ### Clauses without a place in the tree -/

/-- The tokens begin with these words. -/
def opensWith (words : List String) (lexemes : List Lexeme) : Bool :=
  (lexemes.take words.length).map (·.token.keyword) == words

/-- Words are looked for one by one. -/
theorem opensWith_cons {word : String} {words : List String} {lexemes : List Lexeme} :
    opensWith (word :: words) lexemes ↔ ∃ head tail, lexemes = head :: tail ∧
      head.token.keyword = word ∧ opensWith words tail := by
  cases lexemes with
  | nil => simp [opensWith]
  | cons head tail => simp [opensWith]

/-- A placeholder may start the tokens. -/
def placeholderComes (lexemes : List Lexeme) : Bool :=
  lexemes.head?.any (·.token.startsPlaceholder)

/-- The tokens open a clause that the grammar takes without a place for all of its tokens: a cast
with a placeholder for its format, a placeholder next to the name of a table that is a body, or
assignments, whose places are anything up to an equals sign. -/
def opensLoss : List Lexeme → Bool
  | [] => false
  | head :: tail =>
    match head.token.keyword with
    | "FORMAT" => placeholderComes tail ||
        opensWith ["AT", "TIME", "ZONE"] tail.tail && placeholderComes (tail.tail.drop 3)
    | "TABLE" => (tail.take 3).any (·.token.startsPlaceholder)
    | "SET" => tail.any (·.token == .symbol "=")
    | "DUPLICATE" => opensWith ["KEY", "UPDATE"] tail
    | _ => false

/-- No such clause is opened anywhere in the tokens. -/
def Lossless (lexemes : List Lexeme) : Prop := ∀ rest, rest <:+ lexemes → opensLoss rest = false

instance (lexemes : List Lexeme) : Decidable (Lossless lexemes) :=
  decidable_of_iff (∀ rest ∈ lexemes.tails, opensLoss rest = false) <| by
    simp only [List.mem_tails, Lossless]

/-- What opens no such clause anywhere has no end that does. -/
theorem Lossless.suffix {lexemes rest : List Lexeme} (lossless : Lossless lexemes)
    (ends : rest <:+ lexemes) : Lossless rest := fun _ last => lossless _ (last.trans ends)

theorem Lossless.tail {head : Lexeme} {tail : List Lexeme} (lossless : Lossless (head :: tail)) :
    Lossless tail := lossless.suffix (List.suffix_cons head tail)

theorem Lossless.head {head : Lexeme} {tail : List Lexeme} (lossless : Lossless (head :: tail)) :
    opensLoss (head :: tail) = false := lossless _ List.suffix_rfl

namespace Parse

variable {α β : Type} {held : List String} {step : Parse α} {next : α → Parse β}
  {kept : α → List String} {before after : List Lexeme}

/-- Two steps succeed if the first does, and then the second where it stopped. -/
theorem bind_eq_ok {result : β × List Lexeme} :
    (step >>= next) before = .ok result ↔
      ∃ a mid, step before = .ok (a, mid) ∧ next a mid = .ok result := by
  simp only [bind]
  cases step before with
  | ok both =>
    obtain ⟨a, mid⟩ := both
    simp
  | error left => simp

/-- A choice succeeds with its first step, or with the second if the first fails; tokens are put
back. -/
theorem orElse_eq_ok {other : Unit → Parse α} {result : α × List Lexeme} :
    (HOrElse.hOrElse step other) before = .ok result ↔
      step before = .ok result ∨
        ∃ left, step before = .error left ∧ other () before = .ok result := by
  simp only [HOrElse.hOrElse, OrElse.orElse, Alternative.orElse]
  cases step before with
  | ok first => simp
  | error left =>
    cases other () before with
    | ok second => simp
    | error later => simp

/-! ### Triples -/

/-- In front of these tokens the step keeps placeholders: those that are held and those to come are,
after it, those that its result holds and those still to come. -/
def KeepsAt (before : List Lexeme) (held : List String) (step : Parse α)
    (kept : α → List String) : Prop :=
  ∀ a after, step before = .ok (a, after) → Lossless before →
    Lossless after ∧ ∀ name, name ∈ held ++ written before ↔ name ∈ kept a ++ written after

/-- The step keeps placeholders wherever it is taken. -/
def Keeps (held : List String) (step : Parse α) (kept : α → List String) : Prop :=
  ∀ before, KeepsAt before held step kept

/-- The step takes no placeholder. -/
def Passes (step : Parse α) : Prop := Keeps [] step fun _ => []

/-- A result is given without a token being taken. -/
theorem Keeps.pure {a : α} (same : ∀ name, name ∈ held ↔ name ∈ kept a) :
    Keeps held (Pure.pure a) kept := by
  intro before a' after taken lossless
  cases taken
  refine ⟨lossless, fun name => ?_⟩
  rw [List.mem_append, List.mem_append, same]

/-- A step that takes nothing, and keeps just what is held. -/
theorem KeepsAt.done {a : α} (same : held = kept a) : KeepsAt before held (Pure.pure a) kept :=
  Keeps.pure (fun name => by rw [same]) before

theorem Keeps.done {a : α} (same : held = kept a) : Keeps held (Pure.pure a) kept :=
  .pure fun name => by rw [same]

theorem Keeps.fails : Keeps held (failure : Parse α) kept := by
  intro before a after taken
  cases taken

/-- A step after one that takes nothing. -/
theorem Keeps.given {a : α} {kept : β → List String} (then_ : Keeps held (next a) kept) :
    Keeps held (Pure.pure a >>= next) kept := then_

/-- Nothing follows a refusal. -/
theorem Keeps.refused {kept : β → List String} : Keeps held (failure >>= next) kept := by
  intro before b after taken
  cases taken

/-- What more is held stays so, whatever the step keeps. -/
theorem KeepsAt.frame (more : List String) (own : KeepsAt before held step kept) :
    KeepsAt before (more ++ held) step fun a => more ++ kept a := by
  intro a after taken lossless
  obtain ⟨lossless, same⟩ := own a after taken lossless
  refine ⟨lossless, fun name => ?_⟩
  rw [List.append_assoc, List.append_assoc, List.mem_append, same, List.mem_append (s := more)]

/-- A step that goes on with what the step before it keeps. -/
theorem KeepsAt.thread {kept' : β → List String} (first : KeepsAt before held step kept)
    (second : ∀ a, Keeps (kept a) (next a) kept') : KeepsAt before held (step >>= next) kept' := by
  intro b after taken lossless
  obtain ⟨a, mid, taken₁, taken₂⟩ := bind_eq_ok.mp taken
  obtain ⟨lossless, same₁⟩ := first a mid taken₁ lossless
  obtain ⟨lossless, same₂⟩ := second a mid b after taken₂ lossless
  exact ⟨lossless, fun name => (same₁ name).trans (same₂ name)⟩

/-- What the first step keeps is what the second one holds. -/
theorem Keeps.thread {kept' : β → List String} (first : Keeps held step kept)
    (second : ∀ a, Keeps (kept a) (next a) kept') : Keeps held (step >>= next) kept' :=
  fun before => (first before).thread second

/-- A step after one that keeps placeholders of its own. -/
theorem KeepsAt.bind {kept' : β → List String} (first : KeepsAt before [] step kept)
    (second : ∀ a, Keeps (held ++ kept a) (next a) kept') :
    KeepsAt before held (step >>= next) kept' := by
  have framed := first.frame held
  rw [List.append_nil] at framed
  exact framed.thread second

/-- More can be held while a step is taken. -/
theorem Keeps.frame (more : List String) (own : Keeps held step kept) :
    Keeps (more ++ held) step fun a => more ++ kept a :=
  fun before => (own before).frame more

/-- Two steps, where what is held in front of the first is still held in front of the second. -/
theorem Keeps.bind {kept' : β → List String} (first : Keeps [] step kept)
    (second : ∀ a, Keeps (held ++ kept a) (next a) kept') : Keeps held (step >>= next) kept' :=
  fun before => (first before).bind second

/-- A step after one that takes no placeholder. -/
theorem Passes.bind {kept' : β → List String} (first : Passes step)
    (second : ∀ a, Keeps held (next a) kept') : Keeps held (step >>= next) kept' := by
  refine Keeps.bind first fun a => ?_
  rw [List.append_nil]
  exact second a

theorem Keeps.map {f : α → β} {kept' : β → List String}
    (first : Keeps held step fun a => kept' (f a)) : Keeps held (f <$> step) kept' :=
  first.thread fun _ => .done rfl

theorem Passes.map {f : α → β} (first : Passes step) : Passes (f <$> step) := Keeps.map first

theorem Keeps.congr {kept' : α → List String} (own : Keeps held step kept)
    (same : ∀ a, kept a = kept' a) : Keeps held step kept' := by
  rwa [← funext same]

/-- Only the names count in what is held, not how often or where they stand. -/
theorem Keeps.of_held {held' : List String} (own : Keeps held' step kept)
    (same : ∀ name, name ∈ held ↔ name ∈ held') : Keeps held step kept := by
  intro before a after taken lossless
  obtain ⟨lossless, same'⟩ := own before a after taken lossless
  refine ⟨lossless, fun name => ?_⟩
  rw [List.mem_append, same, ← List.mem_append, same']

/-- A choice keeps placeholders if both of its steps do. -/
theorem Keeps.orElse {other : Unit → Parse α} (one : Keeps held step kept)
    (two : Keeps held (other ()) kept) : Keeps held (HOrElse.hOrElse step other) kept := by
  intro before a after taken lossless
  obtain first | ⟨left, -, second⟩ := orElse_eq_ok.mp taken
  · exact one before a after first lossless
  · exact two before a after second lossless

theorem Keeps.attempt (own : Keeps [] step kept) :
    Keeps [] (attempt step) fun found => (found.map kept).getD [] :=
  .orElse (.map own) (.done rfl)

theorem Keeps.ite {c : Prop} [Decidable c] {other : Parse α} (yes : Keeps held step kept)
    (no : Keeps held other kept) : Keeps held (if c then step else other) kept := by
  split
  · exact yes
  · exact no

theorem KeepsAt.ite {c : Prop} [Decidable c] {other : Parse α}
    (yes : c → KeepsAt before held step kept) (no : KeepsAt before held other kept) :
    KeepsAt before held (if c then step else other) kept := by
  split
  · exact yes ‹c›
  · exact no

/-! ### Looking ahead -/

theorem get_passes : Passes (get : Parse (List Lexeme)) := by
  intro before a after taken lossless
  cases taken
  exact ⟨lossless, fun _ => Iff.rfl⟩

theorem peek?_passes : Passes peek? := get_passes.bind fun _ => .done rfl

theorem keywordAt_passes (index : Nat) : Passes (keywordAt index) :=
  get_passes.bind fun _ => .done rfl

theorem symbolAt_passes (index : Nat) (spelling : String) : Passes (symbolAt index spelling) :=
  get_passes.bind fun _ => .done rfl

/-- A step after a look at the token to come, which is still there. -/
theorem KeepsAt.peek {next : Option Token → Parse β} {kept : β → List String}
    (then_ : KeepsAt before held (next (before.head?.map Lexeme.token)) kept) :
    KeepsAt before held (peek? >>= next) kept := then_

theorem KeepsAt.get {next : List Lexeme → Parse β} {kept : β → List String}
    (then_ : KeepsAt before held (next before) kept) :
    KeepsAt before held (MonadStateOf.get >>= next) kept := then_

theorem KeepsAt.keywordAt {next : String → Parse β} {kept : β → List String} {index : Nat}
    (then_ : KeepsAt before held (next ((before[index]?.map (·.token.keyword)).getD "")) kept) :
    KeepsAt before held (keywordAt index >>= next) kept := then_

/-! ### Single tokens -/

/-- Any token may be taken that starts no placeholder. -/
theorem KeepsAt.take (plain : ∀ lexeme, before.head? = some lexeme →
    lexeme.token.startsPlaceholder = false) : KeepsAt before [] take fun _ => [] := by
  intro a after taken lossless
  match before, taken with
  | head :: tail, taken =>
    cases taken
    rw [written_cons_of_plain (plain _ rfl)]
    exact ⟨lossless.tail, fun _ => Iff.rfl⟩

/-- A step after any token is taken: the token is none that starts a placeholder, or it is refused,
or it is put back for the step `whole`. -/
theorem Keeps.take {next : Lexeme → Parse β} {whole : Parse β} {kept : β → List String}
    (own : Keeps held whole kept)
    (each : ∀ lexeme, lexeme.token.startsPlaceholder = false ∧ Keeps held (next lexeme) kept ∨
      next lexeme = failure ∨ ∀ tail, next lexeme tail = whole (lexeme :: tail)) :
    Keeps held (take >>= next) kept := by
  intro before b after taken lossless
  obtain ⟨lexeme, mid, taken₁, taken₂⟩ := bind_eq_ok.mp taken
  cases before with
  | nil => cases taken₁
  | cons head tail =>
    cases taken₁
    rcases each lexeme with ⟨plain, keeps⟩ | refused | back
    · rw [written_cons_of_plain plain]
      exact keeps mid b after taken₂ lossless.tail
    · rw [refused] at taken₂
      cases taken₂
    · rw [back mid] at taken₂
      exact own _ b after taken₂ lossless

theorem takeIf_cons {test : Token → Bool} {head : Lexeme} {tail : List Lexeme} :
    takeIf test (head :: tail) =
      .ok (if test head.token then (true, tail) else (false, head :: tail)) := by
  change (if test head.token then (do set tail; return true) else return false : Parse Bool)
    (head :: tail) = _
  split <;> rfl

/-- A test that no start of a placeholder passes takes none. -/
theorem takeIf_passes {test : Token → Bool}
    (plain : ∀ token, test token → token.startsPlaceholder = false) : Passes (takeIf test) := by
  intro before a after taken lossless
  match before, taken, lossless with
  | [], taken, lossless =>
    cases taken
    exact ⟨lossless, fun _ => Iff.rfl⟩
  | head :: tail, taken, lossless =>
    rw [takeIf_cons] at taken
    split at taken
    · rename_i passed
      cases taken
      rw [written_cons_of_plain (plain _ passed)]
      exact ⟨lossless.tail, fun _ => Iff.rfl⟩
    · cases taken
      exact ⟨lossless, fun _ => Iff.rfl⟩

/-- Either the keyword does not come and nothing is taken, or it is the token that was. -/
theorem keyword?_eq_ok {word : String} {comes : Bool}
    (taken : keyword? word before = .ok (comes, after)) : comes = false ∧ after = before ∨
      comes = true ∧ ∃ head, before = head :: after ∧ head.token.keyword = word := by
  cases before with
  | nil =>
    cases taken
    exact .inl ⟨rfl, rfl⟩
  | cons head tail =>
    rw [keyword?, takeIf_cons] at taken
    split at taken
    · rename_i is
      cases taken
      exact .inr ⟨rfl, head, rfl, beq_iff_eq.mp is⟩
    · cases taken
      exact .inl ⟨rfl, rfl⟩

theorem keyword_eq_ok {word : String} {u : Unit} (taken : keyword word before = .ok (u, after)) :
    ∃ head, before = head :: after ∧ head.token.keyword = word := by
  obtain ⟨comes, mid, taken₁, taken₂⟩ := bind_eq_ok.mp taken
  rcases keyword?_eq_ok taken₁ with ⟨rfl, -⟩ | ⟨rfl, head, split, is⟩
  · cases taken₂
  · cases taken₂
    exact ⟨head, split, is⟩

theorem keyword?_passes {word : String} (named : word ≠ "") : Passes (keyword? word) := by
  refine takeIf_passes fun token is => Token.plain_of_keyword ?_
  rw [beq_iff_eq.mp is]
  exact named

theorem keyword_passes {word : String} (named : word ≠ "") : Passes (keyword word) :=
  (keyword?_passes named).bind fun _ => .ite (.done rfl) .fails

theorem symbol?_passes {spelling : String}
    (plain : (Token.symbol spelling).startsPlaceholder = false) : Passes (symbol? spelling) := by
  refine takeIf_passes fun token is => ?_
  rw [beq_iff_eq.mp is]
  exact plain

theorem symbol_passes {spelling : String}
    (plain : (Token.symbol spelling).startsPlaceholder = false) : Passes (symbol spelling) :=
  (symbol?_passes plain).bind fun _ => .ite (.done rfl) .fails

theorem oneOf?_passes {words : List String} (named : "" ∉ words) : Passes (oneOf? words) := by
  intro before
  refine .peek ?_
  cases before with
  | nil => exact .done rfl
  | cons head tail =>
    change KeepsAt _ _ (if words.contains head.token.keyword then _ else _) _
    split
    · rename_i found
      refine KeepsAt.thread (.take fun lexeme first => ?_) fun _ => .done rfl
      cases first
      refine Token.plain_of_keyword fun empty => named ?_
      rw [← empty]
      exact List.contains_iff_mem.mp found
    · exact .done rfl

theorem oneOf_passes {words : List String} (named : "" ∉ words) : Passes (oneOf words) := by
  refine (oneOf?_passes named).bind fun found => ?_
  cases found with
  | none => exact .fails
  | some word => exact .done rfl

/-- Tokens that start no placeholder can be left out. -/
theorem written_drop {n : Nat} (plain : ∀ lexeme ∈ before.take n,
    lexeme.token.startsPlaceholder = false) : written (before.drop n) = written before := by
  induction n generalizing before with
  | zero => rfl
  | succ n ih =>
    cases before with
    | nil => rfl
    | cons head tail =>
      rw [written_cons_of_plain (plain head (by simp))]
      exact ih fun lexeme here => plain lexeme (by simp [here])

/-- Words that are taken hold no placeholder. -/
theorem written_of_opensWith {words : List String} (named : "" ∉ words)
    (opens : opensWith words before) : written (before.drop words.length) = written before := by
  refine written_drop fun lexeme here => Token.plain_of_keyword fun empty => named ?_
  rw [← beq_iff_eq.mp opens, ← empty]
  exact List.mem_map_of_mem here

/-- Either the words do not come and nothing is taken, or all of them are. -/
theorem keywords?_eq_ok {words : List String} {comes : Bool}
    (taken : keywords? words before = .ok (comes, after)) : comes = false ∧ after = before ∨
      comes = true ∧ opensWith words before ∧ after = before.drop words.length := by
  change (if opensWith words before then (do modify (·.drop words.length); return true)
    else return false : Parse Bool) before = _ at taken
  split at taken
  · cases taken
    exact .inr ⟨rfl, ‹_›, rfl⟩
  · cases taken
    exact .inl ⟨rfl, rfl⟩

theorem keywords_eq_ok {words : List String} {u : Unit}
    (taken : keywords words before = .ok (u, after)) :
    opensWith words before ∧ after = before.drop words.length := by
  obtain ⟨comes, mid, taken₁, taken₂⟩ := bind_eq_ok.mp taken
  rcases keywords?_eq_ok taken₁ with ⟨rfl, -⟩ | ⟨rfl, opens, rfl⟩
  · cases taken₂
  · cases taken₂
    exact ⟨opens, rfl⟩

theorem keywords?_passes {words : List String} (named : "" ∉ words) : Passes (keywords? words) := by
  intro before comes after taken lossless
  rcases keywords?_eq_ok taken with ⟨-, rfl⟩ | ⟨-, opens, rfl⟩
  · exact ⟨lossless, fun _ => Iff.rfl⟩
  · rw [written_of_opensWith named opens]
    exact ⟨lossless.suffix (List.drop_suffix _ _), fun _ => Iff.rfl⟩

theorem keywords_passes {words : List String} (named : "" ∉ words) : Passes (keywords words) :=
  (keywords?_passes named).bind fun _ => .ite (.done rfl) .fails

theorem takeAs_eq_ok {meaning : Token → Option α} {a : α}
    (taken : takeAs meaning before = .ok (a, after)) :
    ∃ head, before = head :: after ∧ meaning head.token = some a := by
  obtain ⟨_, _, got, meant⟩ := bind_eq_ok.mp taken
  cases got
  cases before with
  | nil => cases meant
  | cons head tail =>
    cases known : meaning head.token with
    | none =>
      simp only [known] at meant
      cases meant
    | some found =>
      simp only [known] at meant
      cases meant
      exact ⟨head, rfl, known⟩

/-- A token with a meaning keeps what is written in it alone. -/
theorem takeAs_keeps {meaning : Token → Option α}
    (own : ∀ token a, meaning token = some a → ∀ next,
      (token.placeholder? next).toList = kept a) : Keeps [] (takeAs meaning) kept := by
  intro before a after taken lossless
  obtain ⟨head, rfl, known⟩ := takeAs_eq_ok taken
  refine ⟨lossless.tail, fun name => ?_⟩
  rw [List.nil_append, written, own _ _ known]

theorem takeAs_passes {meaning : Token → Option α}
    (plain : ∀ token, (meaning token).isSome → token.startsPlaceholder = false) :
    Passes (takeAs meaning) := by
  refine takeAs_keeps fun token a known next => ?_
  rw [Token.placeholder?_eq_none (plain token (by simp [known]))]
  rfl

/-! ### Brackets, rows and clauses -/

theorem Keeps.bracketed (own : Keeps held step kept) : Keeps held (bracketed step) kept := by
  refine (symbol_passes (by decide)).bind fun _ => ?_
  refine own.thread fun a => ?_
  exact (symbol_passes (by decide)).bind fun _ => .done rfl

section Rows

variable {item : Parse α} (own : Keeps [] item kept)
include own

theorem Keeps.commaListFrom (fuel : Nat) :
    Keeps [] (commaListFrom item fuel) fun all => all.flatMap kept := by
  induction fuel with
  | zero => exact .fails
  | succ fuel ih =>
    refine own.bind fun head => ?_
    refine (symbol?_passes (by decide)).bind fun _ => .ite ?_ (.pure ?_)
    · refine ih.bind fun tail => .pure fun name => ?_
      rw [List.flatMap_cons, List.nil_append]
    · simp

/-- Items with commas between them keep what each of them keeps. -/
theorem Keeps.commaList : Keeps [] (commaList item) fun all => all.flatMap kept :=
  get_passes.bind fun _ => own.commaListFrom _

end Rows

theorem Keeps.manyFrom {item : Parse (Option α)}
    (own : Keeps [] item fun found => (found.map kept).getD []) (fuel : Nat) :
    Keeps [] (manyFrom item fuel) fun all => all.flatMap kept := by
  induction fuel with
  | zero => exact .done rfl
  | succ fuel ih =>
    refine own.bind fun found => ?_
    cases found with
    | none => exact .done rfl
    | some head =>
      refine ih.bind fun tail => .pure fun name => ?_
      rw [List.flatMap_cons]
      rfl

/-- So do items without commas. -/
theorem Keeps.many {item : Parse (Option α)}
    (own : Keeps [] item fun found => (found.map kept).getD []) :
    Keeps [] (many item) fun all => all.flatMap kept :=
  get_passes.bind fun _ => own.manyFrom _

/-- A clause that is missing keeps nothing. -/
theorem Keeps.after? {word : String} (named : word ≠ "") (own : Keeps [] step kept) :
    Keeps [] (after? word step) fun found => (found.map kept).getD [] :=
  (keyword?_passes named).bind fun _ => .ite (.map own) (.done rfl)

theorem Keeps.listAfter {words : List String} (named : "" ∉ words) {step : Parse (List α)}
    {kept : List α → List String} (empty : [] = kept []) (own : Keeps [] step kept) :
    Keeps [] (listAfter words step) kept :=
  (keywords?_passes named).bind fun _ => .ite own (.done empty)

theorem Passes.commaList {item : Parse α} (own : Passes item) : Passes (Parse.commaList item) :=
  (Keeps.commaList own).congr fun _ => by simp

theorem Passes.many {item : Parse (Option α)} (own : Passes item) : Passes (Parse.many item) := by
  have keeps : Keeps [] item fun found => (found.map fun _ => ([] : List String)).getD [] :=
    own.congr fun found => by cases found <;> rfl
  exact keeps.many.congr fun _ => by simp

theorem Passes.after? {word : String} (named : word ≠ "") (own : Passes step) :
    Passes (Parse.after? word step) :=
  (keyword?_passes named).bind fun _ => .ite own.map (.done rfl)

/-! ### Names and types -/

theorem name_passes : Passes name := by
  refine takeAs_passes fun token is => ?_
  cases token <;> simp_all [Token.startsPlaceholder]

theorem pathFrom_passes (fuel : Nat) : Passes (pathFrom fuel) := by
  induction fuel with
  | zero => exact .fails
  | succ fuel ih =>
    refine name_passes.bind fun _ => ?_
    exact (symbol?_passes (by decide)).bind fun _ =>
      .ite (ih.bind fun _ => .done rfl) (.done rfl)

theorem path_passes : Passes path := get_passes.bind fun _ => pathFrom_passes _

theorem nameList_passes : Passes nameList := .bracketed name_passes.commaList

theorem nameList?_passes : Passes nameList? :=
  (symbolAt_passes _ _).bind fun _ => .ite nameList_passes (.done rfl)

theorem label?_passes (reserved : List String) : Passes (label? reserved) := by
  refine (keyword?_passes (by decide)).bind fun _ => .ite name_passes.map ?_
  refine peek?_passes.bind fun coming => ?_
  split
  · exact .ite (.done rfl) name_passes.map
  · exact name_passes.map
  · exact .done rfl

theorem sourceAlias?_passes : Passes sourceAlias? := by
  refine (label?_passes _).bind fun label => ?_
  cases label with
  | none => exact .done rfl
  | some label => exact nameList?_passes.bind fun _ => .done rfl

theorem textLiteral_passes : Passes textLiteral := by
  refine takeAs_passes fun token is => ?_
  cases token <;> simp_all [Token.startsPlaceholder]

theorem wholeNumber_passes : Passes wholeNumber := by
  refine takeAs_passes fun token is => ?_
  cases token <;> simp_all [Token.startsPlaceholder]

theorem precision?_passes : Passes precision? :=
  (symbolAt_passes _ _).bind fun _ =>
    .ite (Passes.bind (.bracketed wholeNumber_passes) fun _ => .done rfl) (.done rfl)

theorem scale?_passes : Passes scale? := by
  refine (symbol?_passes (by decide)).bind fun _ => .ite ?_ (.done rfl)
  refine wholeNumber_passes.bind fun _ => ?_
  refine (symbol?_passes (by decide)).bind fun _ => .ite ?_ ?_
  · exact wholeNumber_passes.bind fun _ => symbol_passes (by decide)
  · exact symbol_passes (by decide)

theorem textLength?_passes : Passes textLength? := by
  refine (symbol?_passes (by decide)).bind fun _ => .ite ?_ (.done rfl)
  refine (keyword?_passes (by decide)).bind fun _ => ?_
  extract_lets closed
  have closes : ∀ u, Passes (closed u) := fun _ => symbol_passes (by decide)
  refine .ite (closes ()) ?_
  refine wholeNumber_passes.bind fun _ => ?_
  exact (oneOf?_passes (by decide)).bind fun _ => closes ()

theorem timeZone?_passes : Passes timeZone? := by
  refine (keyword?_passes (by decide)).bind fun _ => .ite (keywords_passes (by decide)) ?_
  exact (keyword?_passes (by decide)).bind fun _ => .ite (keywords_passes (by decide)) (.done rfl)

theorem textList_passes : Passes textList :=
  Passes.bind (.bracketed textLiteral_passes.commaList) fun _ => .done rfl

/-- Takes a token that has been looked at. -/
theorem take_passes_at {coming : Token} (here : before.head?.map Lexeme.token = some coming)
    (plain : coming.startsPlaceholder = false) : KeepsAt before [] take fun _ => [] := by
  refine .take fun lexeme first => ?_
  rw [first, Option.map_some, Option.some.injEq] at here
  rw [here]
  exact plain

/-- Takes a keyword that has been looked at. -/
theorem take_passes_word {word : String}
    (spelled : (before[0]?.map (·.token.keyword)).getD "" = word) (named : word ≠ "") :
    KeepsAt before [] take fun _ => [] := by
  refine .take fun lexeme here => Token.plain_of_keyword ?_
  rw [List.head?_eq_getElem?] at here
  rw [here] at spelled
  exact fun empty => named (spelled.symm.trans empty)

theorem typeArgument?_passes : Passes typeArgument? := by
  intro before
  refine .peek ?_
  have taken : ∀ coming, before.head?.map Lexeme.token = some coming →
      coming.startsPlaceholder = false →
      KeepsAt before [] (some <$> (do let _ ← take)) fun _ => [] := fun coming here plain =>
    ((take_passes_at here plain).thread fun _ => .done rfl).thread fun _ => .done rfl
  split
  · exact taken _ ‹_› rfl
  · exact taken _ ‹_› rfl
  · exact taken _ ‹_› rfl
  · exact taken _ ‹_› rfl
  · exact .done rfl

/-- No type has a placeholder in it. -/
theorem typeName_passes : Passes typeName := by
  intro before
  refine .keywordAt ?_
  generalize spelled : (before[0]?.map (·.token.keyword)).getD "" = word
  refine .get ?_
  have first := take_passes_word spelled
  extract_lets varied unknown known
  have known_passes : KeepsAt before [] known fun _ => [] := by
    refine .ite (fun is => ?plain) <| .ite (fun is => ?integer) <| .ite (fun is => ?precise) <|
      .ite (fun is => ?scaled) <| .ite (fun is => ?double) <| .ite (fun is => ?varchar) <|
      .ite (fun is => ?character) <| .ite (fun is => ?timestamp) <| .ite (fun is => ?zoned) <|
      .ite (fun is => ?enumeration) ?other
    case other =>
      refine (path_passes before).thread fun _ => ?_
      refine (symbol?_passes (by decide)).bind fun _ => .ite ?_ (.done rfl)
      refine typeArgument?_passes.many.bind fun _ => ?_
      exact (symbol_passes (by decide)).bind fun _ => .done rfl
    -- The word that is taken first is one of a list, so it is not empty.
    all_goals refine (first (by rintro rfl; revert is; decide)).thread fun _ => ?_
    case plain => exact .done rfl
    case integer =>
      refine precision?_passes.bind fun _ => ?_
      exact (keyword?_passes (by decide)).bind fun _ => .done rfl
    case precise => exact precision?_passes.bind fun _ => .done rfl
    case scaled => exact scale?_passes.bind fun _ => .done rfl
    case double => exact (keyword?_passes (by decide)).bind fun _ => .done rfl
    case varchar => exact textLength?_passes.bind fun _ => .done rfl
    case character =>
      refine (keyword?_passes (by decide)).bind fun _ => .ite ?_ ?_
      · exact textLength?_passes.bind fun _ => .done rfl
      · refine (keywords?_passes (by decide)).bind fun _ => .ite ?_ ?_
        · exact precision?_passes.bind fun _ => .done rfl
        · exact textLength?_passes.bind fun _ => .done rfl
    case timestamp => exact precision?_passes.bind fun _ => timeZone?_passes.bind fun _ => .done rfl
    case zoned => exact precision?_passes.bind fun _ => .done rfl
    case enumeration => exact textList_passes.bind fun _ => .done rfl
  refine known_passes.thread fun isKnown => ?_
  exact get_passes.bind fun _ => .done rfl

end Parse

end GridReport.Sql
