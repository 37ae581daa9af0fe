import GridReport.Command.Outcome
import GridReport.Command.Reach
import GridReport.Files.Content
import GridReport.Moment
import GridReport.Session
import Std.Time.DateTime.Timestamp

/-!
The program: it fetches the files that a run may look at, runs, and stores what has changed.

Nothing is decided here. The files come in as a value and go out as a value, and so do the printed
text, the lines of the error stream and the exit code.
-/

namespace GridReport.Program

/-- The variable of the environment that chooses which notices are shown. -/
def levelVariable : String := "RUST_LOG"

def fetch (place : Place) : IO (Option Node) := do
  try
    let found ← IO.FS.realPath place.path
    if ← found.isDir then return some .directory
    return some (Node.ofBytes (← IO.FS.readBinFile found))
  catch _ => return none

def fetchAlong (files : Files) (path : String) : IO Files :=
  (Files.placesAlong path).foldlM (fun known place => do
    if (known.at? place).isSome then return known
    match ← fetch place with
    | none => return known
    | some node => return known.put place node) files

/-- Fetches what a run with the arguments may look at. -/
def fetchAll (arguments : Command.Arguments) : IO Files := do
  let files ← arguments.paths.foldlM fetchAlong Files.empty
  match (Connection.load files arguments.dbConfig).toOption.bind Connection.path? with
  | none => return files
  | some path => fetchAlong files path

def store (entry : Place × Node) : IO Unit :=
  match entry.2 with
  | .directory => IO.FS.createDirAll entry.1.path
  | .text content => IO.FS.writeFile entry.1.path content
  | .drawing content => IO.FS.writeFile entry.1.path (Svg.render content)
  | .binary _ => return ()
  | .database _ => return ()

/-- The present. -/
def now : IO Moment := do
  let present ← Std.Time.Timestamp.now
  return ⟨present.val.second.val.toNat, present.val.nano.val.toNat⟩

/-- The clock of the machine, for a run that began at a reading of it in milliseconds. -/
def clock (began : Nat) : Command.Clock IO where
  timed := fun work => do
    let start ← IO.monoMsNow
    let result ← IO.lazyPure work
    let finish ← IO.monoMsNow
    return (result, Decimal.fixedText 3 (finish - start))
  sinceStart := do
    let finish ← IO.monoMsNow
    return Decimal.fixedText 2 ((finish - began + 5) / 10)
  now := Moment.render <$> now

end GridReport.Program

open GridReport in
/-- Runs the program on the words of its command line. -/
def main (words : List String) : IO UInt32 := do
  let began ← IO.monoMsNow
  let shown := ((← IO.getEnv Program.levelVariable).bind Command.Level.ofWord?).getD .error
  let before ←
    match Command.Arguments.parse words with
    | .ok arguments => Program.fetchAll arguments
    | .error _ => pure Files.empty
  let outcome ← Command.run (Program.clock began) words before
  (Files.changes before outcome.files).forM Program.store
  IO.print outcome.output
  (outcome.errorLines shown).forM fun line => IO.eprintln line
  return UInt32.ofNat outcome.exit
