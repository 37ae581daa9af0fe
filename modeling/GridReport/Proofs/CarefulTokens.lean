import GridReport.Proofs.KeptTokens

/-!
Steps of the grammar on texts without a word that changes a table.

A part of a tree that changes a table starts with a word of its own. What is proved of a step is a
triple: if none of the tokens in front of it is such a word, then none of those after it is, and its
result is good. Which results are good belongs to the step, so that the triple of one step after
another is found from those of the two.

* `Careful.bind`, `Careful.ite`, `Careful.orElse` — one step after another, or in place of it.
* `keyword?_careful` — a keyword that is taken is none of these words.
* `commaList_careful`, `many_careful`, `after?_careful` — items in a row, and clauses that may be
  missing.
* `path_careful`, `typeName_careful` — names and types.
-/

namespace GridReport.Sql

/-- The words that start a part of a query that changes a table. -/
def changingWords : List String := ["INSERT", "UPDATE"]

/-- None of the tokens is a word that starts a change. -/
def Calm (lexemes : List Lexeme) : Prop :=
  ∀ lexeme ∈ lexemes, lexeme.token.keyword ∉ changingWords

instance (lexemes : List Lexeme) : Decidable (Calm lexemes) :=
  inferInstanceAs (Decidable (∀ lexeme ∈ lexemes, lexeme.token.keyword ∉ changingWords))

namespace Calm

variable {lexemes others rest : List Lexeme} {first : Lexeme}

/-- A part of calm tokens is calm. -/
theorem subset (calm : Calm lexemes) (part : others ⊆ lexemes) : Calm others :=
  fun lexeme here => calm lexeme (part here)

theorem head (calm : Calm (first :: rest)) : first.token.keyword ∉ changingWords :=
  calm first List.mem_cons_self

theorem tail (calm : Calm (first :: rest)) : Calm rest :=
  calm.subset (List.subset_cons_self first rest)

theorem cons (plain : first.token.keyword ∉ changingWords) (calm : Calm rest) :
    Calm (first :: rest) :=
  List.forall_mem_cons.mpr ⟨plain, calm⟩

end Calm

namespace Parse

/-! ### Triples -/

/-- From tokens without a word that starts a change the step leaves such tokens, and its result is
good. -/
class Careful {α : Type} (step : Parse α) (good : outParam (α → Prop)) : Prop where
  of_calm {a : α} {before after : List Lexeme} (taken : step before = .ok (a, after))
    (calm : Calm before) : Calm after ∧ good a

variable {α β : Type} {step other : Parse α} {good : α → Prop} {next : α → Parse β}
  {good' : β → Prop}

namespace Careful

/-- A result is as good as it is. -/
theorem pure {a : α} (is_good : good a) : Careful (Pure.pure a) good where
  of_calm taken calm := by
    cases taken
    exact ⟨calm, is_good⟩

/-- A step without anything to say about its result. -/
theorem done {a : α} : Careful (Pure.pure a) fun _ => True := .pure trivial

theorem fails : Careful (failure : Parse α) good where
  of_calm taken := by cases taken

/-- The second step may rely on a good result of the first. -/
theorem bind [first : Careful step good] (second : ∀ a, good a → Careful (next a) good') :
    Careful (step >>= next) good' where
  of_calm taken calm := by
    obtain ⟨a, mid, taken₁, taken₂⟩ := bind_eq_ok.mp taken
    obtain ⟨calm, is_good⟩ := first.of_calm taken₁ calm
    exact (second a is_good).of_calm taken₂ calm

/-- A step after one that takes nothing. -/
theorem given {a : α} (then_ : Careful (next a) good') :
    Careful (Pure.pure a >>= next) good' := then_

/-- Nothing follows a refusal. -/
theorem refused : Careful (failure >>= next) good' where
  of_calm taken := by cases taken

/-- What is good may be weakened. -/
theorem mono {good' : α → Prop} [own : Careful step good] (weaker : ∀ a, good a → good' a) :
    Careful step good' where
  of_calm taken calm := by
    obtain ⟨calm, is_good⟩ := own.of_calm taken calm
    exact ⟨calm, weaker _ is_good⟩

/-- Nothing is said of the result any more. -/
theorem forget [Careful step good] : Careful step fun _ => True := .mono fun _ _ => trivial

theorem map {f : α → β} [Careful step good] (image : ∀ a, good a → good' (f a)) :
    Careful (f <$> step) good' :=
  .bind fun a is_good => .pure (image a is_good)

theorem ite {c : Prop} [Decidable c] (yes : Careful step good) (no : Careful other good) :
    Careful (if c then step else other) good := by
  split
  · exact yes
  · exact no

/-- A choice is careful if both of its steps are. -/
theorem orElse {other : Unit → Parse α} (one : Careful step good)
    (two : Careful (other ()) good) : Careful (HOrElse.hOrElse step other) good where
  of_calm {a before after} taken calm := by
    obtain first | ⟨left, -, second⟩ := orElse_eq_ok.mp taken
    · exact one.of_calm first calm
    · exact two.of_calm second calm

end Careful

instance some_careful [Careful step good] :
    Careful (some <$> step) fun found => ∀ a ∈ found, good a :=
  .map fun _ is_good _ same => Option.some.inj same ▸ is_good

instance attempt_careful [Careful step good] :
    Careful (attempt step) fun found => ∀ a ∈ found, good a :=
  .orElse some_careful (.pure fun _ absent => nomatch absent)

/-! ### Tokens to come -/

instance get_careful : Careful (get : Parse (List Lexeme)) Calm where
  of_calm taken calm := by
    cases taken
    exact ⟨calm, calm⟩

theorem set_careful {rest : List Lexeme} (calm : Calm rest) :
    Careful (set rest : Parse PUnit) fun _ => True where
  of_calm taken _ := by
    cases taken
    exact ⟨calm, trivial⟩

/-- Tokens may be left out, if calm ones stay calm. -/
theorem modify_careful {change : List Lexeme → List Lexeme}
    (stays : ∀ lexemes, Calm lexemes → Calm (change lexemes)) :
    Careful (modify change : Parse PUnit) fun _ => True where
  of_calm taken calm := by
    cases taken
    exact ⟨stays _ calm, trivial⟩

instance peek?_careful : Careful peek? fun _ => True := .bind fun _ _ => .done

instance keywordAt_careful (index : Nat) : Careful (keywordAt index) fun _ => True :=
  .bind fun _ _ => .done

instance symbolAt_careful (index : Nat) (spelling : String) :
    Careful (symbolAt index spelling) fun _ => True := .bind fun _ _ => .done

/-! ### Single tokens -/

instance take_careful : Careful take fun lexeme => lexeme.token.keyword ∉ changingWords := by
  refine .bind fun coming calm => ?_
  cases coming with
  | nil => exact .fails
  | cons head tail =>
    have := set_careful calm.tail
    exact .bind fun _ _ => .pure calm.head

/-- A token that was taken is put back. -/
theorem putBack_careful {lexeme : Lexeme} (plain : lexeme.token.keyword ∉ changingWords) :
    Careful (modify (lexeme :: ·) : Parse PUnit) fun _ => True :=
  modify_careful fun _ calm => .cons plain calm

theorem takeAs_careful {meaning : Token → Option α}
    (means : ∀ token a, meaning token = some a → good a) : Careful (takeAs meaning) good := by
  refine .bind fun coming calm => ?_
  cases coming with
  | nil => exact .fails
  | cons head tail =>
    have := set_careful calm.tail
    cases meant : meaning head.token with
    | none => simpa only [meant] using .fails
    | some a => simpa only [meant] using .bind fun _ _ => .pure (means _ _ meant)

/-- A token is taken by a test that the words of changes do not pass. -/
theorem takeIf_careful {test : Token → Bool} {good : Bool → Prop} (left : good false)
    (passes : ∀ token, test token → token.keyword ∉ changingWords → good true) :
    Careful (takeIf test) good := by
  refine .bind fun coming calm => ?_
  cases coming with
  | nil => exact .pure left
  | cons head tail =>
    have := set_careful calm.tail
    cases passed : test head.token with
    | false => simpa only [passed] using .pure left
    | true => simpa only [passed] using .bind fun _ _ => .pure (passes _ passed calm.head)

/-- A keyword that is taken starts no change. -/
instance keyword?_careful (word : String) :
    Careful (keyword? word) fun taken => taken → word ∉ changingWords :=
  takeIf_careful (fun absurd => nomatch absurd) fun _ is plain _ => beq_iff_eq.mp is ▸ plain

instance symbol?_careful (spelling : String) : Careful (symbol? spelling) fun _ => True :=
  takeIf_careful trivial fun _ _ _ => trivial

instance keyword_careful (word : String) : Careful (keyword word) fun _ => True :=
  .bind fun _ _ => .ite .done .fails

instance symbol_careful (spelling : String) : Careful (symbol spelling) fun _ => True :=
  .bind fun _ _ => .ite .done .fails

instance keywords?_careful (words : List String) : Careful (keywords? words) fun _ => True := by
  have := modify_careful fun lexemes calm =>
    Calm.subset calm (List.drop_subset words.length lexemes)
  refine .bind fun coming calm => .ite ?_ .done
  exact .bind fun _ _ => .done

instance keywords_careful (words : List String) : Careful (keywords words) fun _ => True :=
  .bind fun _ _ => .ite .done .fails

instance oneOf?_careful (words : List String) : Careful (oneOf? words) fun _ => True := by
  refine .bind fun coming _ => ?_
  split
  · exact .done
  · exact .ite (.bind fun _ _ => .done) .done

instance oneOf_careful (words : List String) : Careful (oneOf words) fun _ => True := by
  refine .bind fun found _ => ?_
  split
  · exact .done
  · exact .fails

/-! ### Items in a row -/

theorem Careful.bracketed (own : Careful step good) : Careful (Parse.bracketed step) good :=
  .bind fun _ _ => .bind fun _ is_good => .bind fun _ _ => .pure is_good

instance bracketed_careful [own : Careful step good] : Careful (bracketed step) good :=
  .bracketed own

/-- Of items with commas between them, each is good. -/
theorem commaListFrom_careful [Careful step good] (fuel : Nat) :
    Careful (commaListFrom step fuel) fun items => ∀ a ∈ items, good a := by
  induction fuel with
  | zero => exact .fails
  | succ fuel ih =>
    refine .bind fun head is_good => .bind fun _ _ => .ite ?_ ?_
    · exact .bind fun tail good_tail => .pure (List.forall_mem_cons.mpr ⟨is_good, good_tail⟩)
    · exact .pure (List.forall_mem_singleton.mpr is_good)

instance commaList_careful [Careful step good] :
    Careful (commaList step) fun items => ∀ a ∈ items, good a :=
  .bind fun _ _ => commaListFrom_careful _

theorem manyFrom_careful {step : Parse (Option α)} {good : Option α → Prop} [Careful step good]
    (fuel : Nat) : Careful (manyFrom step fuel) fun items => ∀ a ∈ items, good (some a) := by
  induction fuel with
  | zero => exact .pure fun _ absent => nomatch absent
  | succ fuel ih =>
    refine .bind fun found is_good => ?_
    cases found with
    | none => exact .pure fun _ absent => nomatch absent
    | some head =>
      exact .bind fun tail good_tail => .pure (List.forall_mem_cons.mpr ⟨is_good, good_tail⟩)

instance many_careful {step : Parse (Option α)} {good : Option α → Prop} [Careful step good] :
    Careful (many step) fun items => ∀ a ∈ items, good (some a) :=
  .bind fun _ _ => manyFrom_careful _

instance after?_careful (word : String) [Careful step good] :
    Careful (after? word step) fun found => ∀ a ∈ found, good a :=
  .bind fun _ _ => .ite some_careful (.pure fun _ absent => nomatch absent)

instance listAfter_careful {step : Parse (List α)} {good : α → Prop} (words : List String)
    [Careful step fun items => ∀ a ∈ items, good a] :
    Careful (listAfter words step) fun items => ∀ a ∈ items, good a :=
  .bind fun _ _ => .ite inferInstance (.pure fun _ absent => nomatch absent)

/-! ### Names -/

instance name_careful : Careful name fun _ => True := takeAs_careful fun _ _ _ => trivial

theorem pathFrom_careful (fuel : Nat) : Careful (pathFrom fuel) fun _ => True := by
  induction fuel with
  | zero => exact .fails
  | succ fuel ih =>
    refine .bind fun _ _ => .bind fun _ _ => .ite ?_ .done
    exact .bind fun _ _ => .done

instance path_careful : Careful path fun _ => True := .bind fun _ _ => pathFrom_careful _

instance nameList_careful : Careful nameList fun _ => True := .bracketed .forget

instance nameList?_careful : Careful nameList? fun _ => True :=
  .bind fun _ _ => .ite inferInstance .done

instance label?_careful (reserved : List String) : Careful (label? reserved) fun _ => True := by
  refine .bind fun _ _ => .ite .forget (.bind fun coming _ => ?_)
  split
  · exact .ite .done .forget
  · exact .forget
  · exact .done

instance sourceAlias?_careful : Careful sourceAlias? fun _ => True := by
  refine .bind fun found _ => ?_
  split
  · exact .done
  · exact .bind fun _ _ => .done

instance textLiteral_careful : Careful textLiteral fun _ => True :=
  takeAs_careful fun _ _ _ => trivial

/-! ### Types -/

instance wholeNumber_careful : Careful wholeNumber fun _ => True :=
  takeAs_careful fun _ _ _ => trivial

instance precision?_careful : Careful precision? fun _ => True :=
  .bind fun _ _ => .ite (.bind fun _ _ => .done) .done

instance scale?_careful : Careful scale? fun _ => True := by
  refine .bind fun _ _ => .ite ?_ .done
  refine .bind fun _ _ => .bind fun _ _ => .ite ?_ ?_
  · exact .bind fun _ _ => inferInstance
  · exact inferInstance

instance textLength?_careful : Careful textLength? fun _ => True := by
  refine .bind fun _ _ => .ite (.bind fun _ _ => .ite ?_ ?_) .done
  · exact inferInstance
  · exact .bind fun _ _ => .bind fun _ _ => inferInstance

instance timeZone?_careful : Careful timeZone? fun _ => True :=
  .bind fun _ _ => .ite inferInstance (.bind fun _ _ => .ite inferInstance .done)

instance textList_careful : Careful textList fun _ => True := .bind fun _ _ => .done

instance typeArgument?_careful : Careful typeArgument? fun _ => True := by
  have taken : Careful (do let _ ← take) fun _ => True := .bind fun _ _ => .done
  refine .bind fun coming _ => ?_
  split
  iterate 4
    · exact .forget
  · exact .done

instance typeName_careful : Careful typeName fun _ => True := by
  refine .bind fun word _ => .bind fun before _ => ?_
  extract_lets varied unknown known
  have known_careful : Careful known fun _ => True := by
    refine .ite (.bind fun _ _ => .done) ?_
    refine .ite (.bind fun _ _ => .bind fun _ _ => .bind fun _ _ => .done) ?_
    refine .ite (.bind fun _ _ => .bind fun _ _ => .done) ?_
    refine .ite (.bind fun _ _ => .bind fun _ _ => .done) ?_
    refine .ite (.bind fun _ _ => .bind fun _ _ => .done) ?_
    refine .ite (.bind fun _ _ => .bind fun _ _ => .done) ?_
    refine .ite (.bind fun _ _ => .bind fun _ _ => .ite ?_ ?_) ?_
    · exact .bind fun _ _ => .done
    · exact .bind fun _ _ => .ite (.bind fun _ _ => .done) (.bind fun _ _ => .done)
    refine .ite (.bind fun _ _ => .bind fun _ _ => .bind fun _ _ => .done) ?_
    refine .ite (.bind fun _ _ => .bind fun _ _ => .done) ?_
    refine .ite (.bind fun _ _ => .bind fun _ _ => .done) ?_
    refine .bind fun _ _ => .bind fun _ _ => .ite ?_ .done
    exact .bind fun _ _ => .bind fun _ _ => .done
  exact .bind fun _ _ => .bind fun _ _ => .done

end Parse

end GridReport.Sql
