import GridReport.Command.Notice
import GridReport.Error
import GridReport.Files

/-!
The acts of a run: they change files, print, give notices, and may stop the run.

What was changed, printed and said before a stop stays. The time comes in through a clock, so with a
clock that stands still a run is a function of its command line and its files.
-/

namespace GridReport.Command

/-- What a run has done so far. -/
structure Scene where
  files : Files
  printed : String
  notices : List Notice

namespace Scene

/-- Nothing has been done. -/
def start (files : Files) : Scene := ⟨files, "", []⟩

def say (scene : Scene) (notice : Notice) : Scene :=
  { scene with notices := scene.notices ++ [notice] }

end Scene

inductive StopCause where
  | refused (error : Error)
  /-- The text of the run cannot be written. -/
  | unwritten (fault : FileFault)
  | broken (defect : Defect)

/-- The causes to be reported, the outermost first. What broke off has none. -/
def StopCause.chain : StopCause → List String
  | .refused error => error.chain
  | .unwritten fault => [fault.message]
  | .broken _ => []

def StopCause.ofFailure : Failure → StopCause
  | .refused error => .refused error
  | .broken defect => .broken defect

/-- Why a run stops, and what it was about then, the outermost first. -/
structure Stop where
  contexts : List String
  cause : StopCause

structure Clock (m : Type → Type) where
  /-- Runs a computation and tells how many seconds it took, with three decimal places. -/
  timed : {α : Type} → (Unit → α) → m (α × String)
  /-- The seconds since the run began, with two decimal places. -/
  sinceStart : m String
  /-- The present, as a date and a time of day. -/
  now : m String

def Clock.still (shown : String) : Clock Id where
  timed := fun work => (work (), shown)
  sinceStart := shown
  now := shown

abbrev ActIn (m : Type → Type) : Type → Type := ExceptT Stop (StateT Scene m)

abbrev Act : Type → Type := ActIn Id

namespace ActIn

variable {m : Type → Type} [Monad m] {α : Type}

def say (notice : Notice) : ActIn m Unit := modify fun scene => scene.say notice

def sayAll (notices : List Notice) : ActIn m Unit :=
  modify fun scene => { scene with notices := scene.notices ++ notices }

def print (text : String) : ActIn m Unit :=
  modify fun scene => { scene with printed := scene.printed ++ text }

def files : ActIn m Files := do return (← get).files

def orHalt : Except StopCause α → ActIn m α
  | .ok a => pure a
  | .error cause => throw ⟨[], cause⟩

def orStop (result : Except Failure α) : ActIn m α := orHalt (result.mapError .ofFailure)

def orReport (result : Except Error α) : ActIn m α := orHalt (result.mapError .refused)

/-- Changes the files; a change that fails may have been made in part. -/
def alter (change : Files → Except StopCause α × Files) : ActIn m α := do
  let scene ← get
  let (result, after) := change scene.files
  set { scene with files := after }
  orHalt result

/-- An act that stops says what it was about. -/
def within (context : String) (act : ActIn m α) : ActIn m α :=
  ExceptT.adapt (fun stop => { stop with contexts := context :: stop.contexts }) act

/-- Takes the time of an act; the notice of it comes last, also if the act stops. -/
def timed (clock : Clock m) (stage : Stage) (act : Act α) : ActIn m α :=
  ExceptT.mk fun scene => do
    let ((result, after), seconds) ← clock.timed fun _ => act.run scene
    return (result, after.say (.took stage seconds))

end ActIn

end GridReport.Command
