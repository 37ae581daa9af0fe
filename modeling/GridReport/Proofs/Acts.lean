import GridReport.Command.Act
import Mathlib.Tactic.Choose

/-!
What an act leaves, in any world.

An act runs in a monad that is not known; the world takes part in it through a clock alone. What
holds of all results of an act is told by a computation of the same world that gives each result
together with the proof.

* `Surely`, `Surely.bind` — what holds of every result of a computation.
* `Ends`, `Ends.bind` — how an act ends that begins with given files, and with which files.
* `ends_orReport`, `ends_alter`, `Ends.within`, `Ends.timed` — one rule for each kind of act.
-/

namespace GridReport.Command

/-! ### What holds of every result -/

section Surely

variable {m : Type → Type} [Monad m] {α β : Type} {holds : α → Prop}

/-- Every result of the computation is one of which this holds. -/
def Surely (holds : α → Prop) (computation : m α) : Prop :=
  ∃ proved : m {a : α // holds a}, Subtype.val <$> proved = computation

/-- Without a world there is one result. -/
theorem surely_id_iff {computation : Id α} : Surely holds computation ↔ holds computation.run := by
  constructor
  · rintro ⟨proved, rfl⟩
    exact proved.run.property
  · intro h
    exact ⟨pure ⟨computation.run, h⟩, rfl⟩

variable [LawfulMonad m]

theorem surely_pure {a : α} (h : holds a) : Surely holds (pure a : m α) :=
  ⟨pure ⟨a, h⟩, map_pure _ _⟩

theorem surely_true (computation : m α) : Surely (fun _ => True) computation :=
  ⟨(fun a => ⟨a, trivial⟩) <$> computation, by simp⟩

/-- What surely holds of the first computation may be used for the second. -/
theorem Surely.bind {after : β → Prop} {computation : m α} {next : α → m β}
    (first : Surely holds computation) (second : ∀ a, holds a → Surely after (next a)) :
    Surely after (computation >>= next) := by
  obtain ⟨proved, rfl⟩ := first
  choose further same using second
  refine ⟨proved >>= fun a => further a.val a.property, ?_⟩
  simp [same]

theorem Surely.mono {weaker : α → Prop} {computation : m α} (surely : Surely holds computation)
    (h : ∀ a, holds a → weaker a) : Surely weaker computation := by
  rw [← bind_pure computation]
  exact surely.bind fun a held => surely_pure (h a held)

end Surely

/-- The clock gives the result of what it takes the time of, whatever it shows. -/
def Clock.Honest {m : Type → Type} [Monad m] (clock : Clock m) : Prop :=
  ∀ {α : Type} (work : Unit → α), Surely (fun taken => taken.1 = work ()) (clock.timed work)

/-- A clock that stands still does nothing else. -/
theorem Clock.still_honest (shown : String) : (Clock.still shown).Honest :=
  fun _ => surely_id_iff.mpr rfl

/-! ### How an act runs -/

section Runs

variable {m : Type → Type} [Monad m] {α β : Type}

/-- The second act goes on from the scene that the first one leaves, unless that stops. -/
theorem run_bind (act : ActIn m α) (next : α → ActIn m β) (scene : Scene) :
    (act >>= next).run scene = act.run scene >>= fun ended =>
      match ended.1 with
      | .ok a => (next a).run ended.2
      | .error stop => pure (.error stop, ended.2) := by
  refine congrArg (act.run scene >>= ·) (funext fun ended => ?_)
  obtain ⟨result, after⟩ := ended
  cases result <;> rfl

/-- A context is put in front of the contexts of a stop, and of nothing else. -/
theorem run_within (context : String) (act : ActIn m α) (scene : Scene) :
    (ActIn.within context act).run scene = act.run scene >>= fun ended =>
      pure (ended.1.mapError fun stop => { stop with contexts := context :: stop.contexts },
        ended.2) := rfl

theorem run_orHalt (result : Except StopCause α) (scene : Scene) :
    (ActIn.orHalt result : ActIn m α).run scene = pure (result.mapError (Stop.mk []), scene) := by
  cases result <;> rfl

variable [LawfulMonad m]

theorem run_get (scene : Scene) : (get : ActIn m Scene).run scene = pure (.ok scene, scene) :=
  pure_bind (scene, scene) fun found => pure (Except.ok found.1, found.2)

theorem run_set (scene next : Scene) :
    (set next : ActIn m PUnit).run scene = pure (.ok ⟨⟩, next) :=
  pure_bind (PUnit.unit, next) fun found => pure (Except.ok found.1, found.2)

theorem run_modify (change : Scene → Scene) (scene : Scene) :
    (modify change : ActIn m Unit).run scene = pure (.ok (), change scene) :=
  pure_bind (PUnit.unit, change scene) fun found => pure (Except.ok found.1, found.2)

theorem run_liftM (told : m α) (scene : Scene) :
    (liftM told : ActIn m α).run scene = told >>= fun a => pure (.ok a, scene) := by
  have lifted : (liftM told : ActIn m α).run scene = (told >>= fun a => pure (a, scene)) >>=
      fun found => pure (Except.ok found.1, found.2) := rfl
  simp only [lifted, bind_assoc, pure_bind]

theorem run_files (scene : Scene) :
    (ActIn.files : ActIn m Files).run scene = pure (.ok scene.files, scene) := by
  rw [ActIn.files, run_bind, run_get, pure_bind]
  rfl

/-- A change of the files is kept also where it stops. -/
theorem run_alter (change : Files → Except StopCause α × Files) (scene : Scene) :
    (ActIn.alter change : ActIn m α).run scene =
      pure ((change scene.files).1.mapError (Stop.mk []),
        { scene with files := (change scene.files).2 }) := by
  rw [ActIn.alter, run_bind, run_get, pure_bind]
  simp only
  rw [run_bind, run_set, pure_bind]
  exact run_orHalt _ _

end Runs

/-! ### How an act ends -/

section Ends

variable {m : Type → Type} [Monad m] {α β : Type} {before : Files}
  {post : Except Stop α → Files → Prop}

/-- Whatever the world does, an act that begins with these files ends with such a result and such
files. -/
def Ends (act : ActIn m α) (before : Files) (post : Except Stop α → Files → Prop) : Prop :=
  ∀ scene, scene.files = before → Surely (fun ended => post ended.1 ended.2.files) (act.run scene)

variable [LawfulMonad m]

/-- What is said of an end may be weakened. -/
theorem Ends.mono {weaker : Except Stop α → Files → Prop} {act : ActIn m α}
    (ends : Ends act before post) (h : ∀ result after, post result after → weaker result after) :
    Ends act before weaker :=
  fun scene there => (ends scene there).mono fun _ held => h _ _ held

/-- An act that the world has no part in. -/
theorem ends_of_run {act : ActIn m α} {ending : Scene → Except Stop α × Scene}
    (runs : ∀ scene, act.run scene = pure (ending scene))
    (h : ∀ scene, scene.files = before → post (ending scene).1 (ending scene).2.files) :
    Ends act before post := by
  intro scene there
  rw [runs]
  exact surely_pure (h scene there)

theorem ends_pure {a : α} (h : post (.ok a) before) : Ends (m := m) (pure a) before post := by
  have runs : ∀ scene, (pure a : ActIn m α).run scene = pure (.ok a, scene) := fun _ => rfl
  apply ends_of_run runs
  rintro scene rfl
  exact h

/-- An act goes on from each result of the one in front of it, with the files that it left. -/
theorem Ends.bind {middle : Except Stop α → Files → Prop} {post : Except Stop β → Files → Prop}
    {act : ActIn m α} {next : α → ActIn m β} (first : Ends act before middle)
    (goes_on : ∀ a files, middle (.ok a) files → Ends (next a) files post)
    (stops : ∀ stop files, middle (.error stop) files → post (.error stop) files) :
    Ends (act >>= next) before post := by
  intro scene there
  rw [run_bind]
  apply (first scene there).bind
  rintro ⟨result, left⟩ held
  cases result with
  | ok a => exact goes_on a left.files held left rfl
  | error stop => exact surely_pure (stops stop left.files held)

/-- An act in front that gives a result. -/
theorem Ends.bind_ok {post : Except Stop β → Files → Prop} {act : ActIn m α} {a : α}
    {left : Files} {next : α → ActIn m β}
    (first : Ends act before fun result after => result = .ok a ∧ after = left)
    (goes_on : Ends (next a) left post) : Ends (act >>= next) before post := by
  apply first.bind
  · rintro given files ⟨same, rfl⟩
    cases same
    exact goes_on
  · rintro stop files ⟨same, -⟩
    cases same

/-- An act in front that stops. -/
theorem Ends.bind_error {post : Except Stop β → Files → Prop} {act : ActIn m α} {stop : Stop}
    {left : Files} {next : α → ActIn m β}
    (first : Ends act before fun result after => result = .error stop ∧ after = left)
    (stops : post (.error stop) left) : Ends (act >>= next) before post := by
  apply first.bind
  · rintro given files ⟨same, -⟩
    cases same
  · rintro halted files ⟨same, rfl⟩
    cases same
    exact stops

/-- Two acts of which the first brings about and the second keeps what is to hold of the files. -/
theorem Ends.bind_keeps {kept : Files → Prop} {act : ActIn m α} {next : α → ActIn m β}
    (first : Ends act before fun _ after => kept after)
    (keeps : ∀ a files, kept files → Ends (next a) files fun _ after => kept after) :
    Ends (act >>= next) before fun _ after => kept after :=
  first.bind keeps fun _ _ held => held

/-- An act in front that ends as a step does that may be refused. -/
theorem Ends.bind_step {ε : Type} {post : Except Stop β → Files → Prop} {act : ActIn m α}
    {step : Except ε α} {stopped : ε → Stop} {left : Files} {next : α → ActIn m β}
    (first : Ends act before fun result after => result = step.mapError stopped ∧ after = left)
    (goes_on : ∀ a, step = .ok a → Ends (next a) left post)
    (stops : ∀ refused, step = .error refused → post (.error (stopped refused)) left) :
    Ends (act >>= next) before post := by
  cases step with
  | ok a => exact first.bind_ok (goes_on a rfl)
  | error refused => exact first.bind_error (stops refused rfl)

theorem ends_modify {change : Scene → Scene} {post : Except Stop Unit → Files → Prop}
    (keeps : ∀ scene, (change scene).files = scene.files) (h : post (.ok ()) before) :
    Ends (m := m) (modify change) before post := by
  apply ends_of_run (run_modify change)
  rintro scene rfl
  rwa [keeps]

/-- A notice leaves the files alone. -/
theorem ends_say {notice : Notice} {post : Except Stop Unit → Files → Prop}
    (h : post (.ok ()) before) : Ends (m := m) (ActIn.say notice) before post :=
  ends_modify (fun _ => rfl) h

theorem ends_sayAll {notices : List Notice} {post : Except Stop Unit → Files → Prop}
    (h : post (.ok ()) before) : Ends (m := m) (ActIn.sayAll notices) before post :=
  ends_modify (fun _ => rfl) h

/-- So does a text for the reader. -/
theorem ends_print {text : String} {post : Except Stop Unit → Files → Prop}
    (h : post (.ok ()) before) : Ends (m := m) (ActIn.print text) before post :=
  ends_modify (fun _ => rfl) h

/-- To look at the files leaves them as they are. -/
theorem ends_files {post : Except Stop Files → Files → Prop} (h : post (.ok before) before) :
    Ends (m := m) ActIn.files before post := by
  apply ends_of_run run_files
  rintro scene rfl
  exact h

/-- A result is taken as it is, and a cause becomes a stop without contexts. -/
theorem ends_orHalt {result : Except StopCause α}
    (h : post (result.mapError (Stop.mk [])) before) :
    Ends (m := m) (ActIn.orHalt result) before post := by
  apply ends_of_run (run_orHalt result)
  rintro scene rfl
  exact h

theorem ends_orStop {result : Except Failure α}
    (h : post (result.mapError fun failure => ⟨[], .ofFailure failure⟩) before) :
    Ends (m := m) (ActIn.orStop result) before post := by
  apply ends_orHalt
  cases result <;> exact h

theorem ends_orReport {result : Except Error α}
    (h : post (result.mapError fun error => ⟨[], .refused error⟩) before) :
    Ends (m := m) (ActIn.orReport result) before post := by
  apply ends_orHalt
  cases result <;> exact h

/-- A step that is not refused. -/
theorem Ends.accepted {post : Except Stop β → Files → Prop} {result : Except Error α} {a : α}
    {next : α → ActIn m β} (is : result = .ok a) (goes_on : Ends (next a) before post) :
    Ends (ActIn.orReport result >>= next) before post :=
  (ends_orReport ⟨by rw [is]; rfl, rfl⟩).bind_ok goes_on

/-- A step that is refused. -/
theorem Ends.refused {post : Except Stop β → Files → Prop} {result : Except Error α}
    {error : Error} {next : α → ActIn m β} (is : result = .error error)
    (stops : post (.error ⟨[], .refused error⟩) before) :
    Ends (ActIn.orReport result >>= next) before post :=
  (ends_orReport ⟨by rw [is]; rfl, rfl⟩).bind_error stops

theorem ends_alter {change : Files → Except StopCause α × Files}
    (h : post ((change before).1.mapError (Stop.mk [])) (change before).2) :
    Ends (m := m) (ActIn.alter change) before post := by
  apply ends_of_run (run_alter change)
  rintro scene rfl
  exact h

/-- A change of the files in front, from which an act goes on if it is not refused. -/
theorem Ends.bind_alter {change : Files → Except StopCause α × Files}
    {post : Except Stop β → Files → Prop} {next : α → ActIn m β}
    (goes_on : ∀ a, (change before).1 = .ok a → Ends (next a) (change before).2 post)
    (stops : ∀ cause, (change before).1 = .error cause →
      post (.error ⟨[], cause⟩) (change before).2) :
    Ends (ActIn.alter change >>= next) before post := by
  have altered : Ends (m := m) (ActIn.alter change) before fun result after =>
      result = (change before).1.mapError (Stop.mk []) ∧ after = (change before).2 :=
    ends_alter ⟨rfl, rfl⟩
  exact altered.bind_step goes_on stops

/-- An act within a context ends like the act, its stop with one more context. -/
theorem Ends.within {context : String} {act : ActIn m α}
    (ends : Ends act before fun result after =>
      post (result.mapError fun stop => { stop with contexts := context :: stop.contexts }) after) :
    Ends (ActIn.within context act) before post := by
  intro scene there
  rw [run_within]
  exact (ends scene there).bind fun _ held => surely_pure held

/-- Taking the time of an act does not change how it ends. -/
theorem Ends.timed {clock : Clock m} {stage : Stage} {act : Act α} (honest : clock.Honest)
    (ends : Ends act before post) : Ends (ActIn.timed clock stage act) before post := by
  intro scene there
  have held := surely_id_iff.mp (ends scene there)
  apply (honest fun _ => act.run scene).bind
  rintro ⟨⟨result, after⟩, seconds⟩ same
  have same : (result, after) = (act.run scene).run := same
  rw [← same] at held
  exact surely_pure held

/-- What the world tells does not change the files. -/
theorem ends_liftM {told : m α} (h : ∀ a, post (.ok a) before) :
    Ends (liftM told : ActIn m α) before post := by
  rintro scene rfl
  rw [run_liftM]
  exact (surely_true told).bind fun a _ => surely_pure (h a)

end Ends

end GridReport.Command
