import GridReport.Command.Run

/-!
What a run leaves: an exit code, printed text, lines for the error stream, and files.
-/

namespace GridReport.Command

/-- How a run ends. -/
inductive Ending where
  /-- With an answer to a request for help or for the version. -/
  | answered
  /-- With everything done, after so many seconds. -/
  | completed (seconds : String)
  /-- The command line leads to no run. -/
  | misused (fault : UsageFault)
  | stopped (stop : Stop)

def indent (mark margin : String) (text : String) : String :=
  mark ++ String.intercalate ("\n" ++ margin) (text.splitToList (· == '\n'))

/-- Causes below an error: a single one has no number. -/
def causeLines : List String → List String
  | [] => []
  | [cause] => ["", "Caused by:", indent "    " "    " cause]
  | causes =>
    ["", "Caused by:"] ++
      causes.zipIdx.map fun cause => indent ("    " ++ toString cause.2 ++ ": ") "       " cause.1

def defectMessage : Defect → String
  | .overflow => "broken off: an integer is out of range"
  | .missingEntry => "broken off: an entry is missing"
  | .longDuration => "broken off: a time is too long to be written"
  | .unorderedAxis => "broken off: an axis ends nowhere"

namespace Stop

def lines (stop : Stop) : List String :=
  match stop.cause with
  | .broken defect => [defectMessage defect]
  | cause =>
    match stop.contexts ++ cause.chain with
    | [] => []
    | outermost :: causes => ("Error: " ++ outermost) :: causeLines causes

def exit (stop : Stop) : Nat :=
  match stop.cause with
  | .broken _ => 101
  | _ => 1

end Stop

namespace Ending

def exit : Ending → Nat
  | .answered => 0
  | .completed _ => 0
  | .misused _ => 2
  | .stopped stop => stop.exit

def lines (quiet : Bool) : Ending → List String
  | .answered => []
  | .completed seconds => if quiet then [] else ["Completed in " ++ seconds ++ "s"]
  | .misused fault => [fault.message]
  | .stopped stop => stop.lines

end Ending

/-- What a run leaves. -/
structure Outcome where
  ending : Ending
  quiet : Bool
  scene : Scene

namespace Outcome

def exit (outcome : Outcome) : Nat := outcome.ending.exit

def output (outcome : Outcome) : String := outcome.scene.printed

/-- The lines for the error stream, with the notices that are shown. -/
def errorLines (outcome : Outcome) (shown : Level) : List String :=
  Notice.lines shown outcome.scene.notices ++ outcome.ending.lines outcome.quiet

def files (outcome : Outcome) : Files := outcome.scene.files

end Outcome

def flagLine (flag : Flag) : String :=
  match flag.short? with
  | none => "      " ++ flag.label
  | some letter => "  -" ++ String.singleton letter ++ ", " ++ flag.label

def verbLines (verb : Verb) : List String :=
  ("  " ++ verb.word) :: (Flag.ofVerb verb).map fun flag => "    " ++ flagLine flag

def helpText : String :=
  String.intercalate "\n"
    ([purpose, "", "Usage: simstats [OPTIONS] <COMMAND>", "", "Commands:"] ++
      Verb.all.flatMap verbLines ++ ["", "Options:"] ++
      (Flag.allowed none).map flagLine ++ [""])

/-- What a command line leaves that leads to no run. -/
def answer (files : Files) : Instead → Outcome
  | .help => ⟨.answered, true, { Scene.start files with printed := helpText }⟩
  | .version =>
    ⟨.answered, true, { Scene.start files with printed := "simstats " ++ version ++ "\n" }⟩
  | .refused fault => ⟨.misused fault, true, Scene.start files⟩

/-- Runs the program. -/
def run [Engine] {m : Type → Type} [Monad m] (clock : Clock m) (words : List String)
    (files : Files) : m Outcome := do
  match Arguments.parse words with
  | .error instead => return answer files instead
  | .ok arguments =>
    let (result, scene) ← (perform clock arguments).run (Scene.start files)
    match result with
    | .error stop => return ⟨.stopped stop, arguments.quiet, scene⟩
    | .ok () => return ⟨.completed (← clock.sinceStart), arguments.quiet, scene⟩

end GridReport.Command
