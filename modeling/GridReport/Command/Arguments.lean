import GridReport.ChartSettings
import GridReport.Command.Flag
import GridReport.Connection

/-!
The command line: a verb, and flags before and after it.

Words are read from the left. A flag that waits for its value, or has just got one, is pending: its
value is looked at when the next flag is known or the words end, so an unknown flag is reported
before a bad value that stands in front of it. What stands before the verb is settled last.
-/

namespace GridReport.Command

inductive ChartTask where
  | transfers (interval : Int)
  | durations (bins : Nat)
  | fileSizes (bins : Nat)
  | replicas
  | traffic
  /-- The first column of the query in a file. -/
  | query (file : String) (parameters : List Parameter) (bins : Nat)

/-- The name of a chart: the word that asks for it, or the name of the query's file. -/
def ChartTask.name : ChartTask → String
  | .transfers _ => Verb.transfers.word
  | .durations _ => Verb.durations.word
  | .fileSizes _ => Verb.fileSizes.word
  | .replicas => Verb.replicas.word
  | .traffic => Verb.traffic.word
  | .query file _ _ => (Files.stem? file).getD Verb.query.word

/-- What a run is to do. -/
inductive Task where
  | draw (chart : ChartTask)
  | updateSku (config skus output : String)

/-- A command line that has been understood. -/
structure Arguments where
  task : Task
  dbConfig : String
  queriesDir : Option String
  outDir : String
  width : Nat
  height : Nat
  format : Format
  outfile : Option String
  quiet : Bool

/-- Why a command line is refused. -/
inductive UsageFault where
  /-- There are no words. -/
  | nothing
  /-- There are flags, but no verb. -/
  | noVerb
  | unknownVerb (word : String)
  | unexpected (word : String)
  | noValue (flag : Flag)
  | needlessValue (flag : Flag) (value : String)
  | repeated (flag : Flag)
  | invalid (flag : Flag) (value : String) (fault : ValueFault)
  | missingFlag
deriving Repr, DecidableEq

/-- What the program is for, in one line. -/
def purpose : String := "Evaluates grid simulation output databases and renders charts"

/-- The line that reports a refusal. -/
def UsageFault.message : UsageFault → String
  | .nothing => purpose
  | .noVerb => "error: 'simstats' requires a subcommand but one was not provided"
  | .unknownVerb word => "error: unrecognized subcommand '" ++ word ++ "'"
  | .unexpected word => "error: unexpected argument '" ++ word ++ "' found"
  | .noValue flag =>
    "error: a value is required for '" ++ flag.label ++ "' but none was supplied"
  | .needlessValue flag value =>
    "error: unexpected value '" ++ value ++ "' for '" ++ flag.label ++
      "' found; no more were expected"
  | .repeated flag => "error: the argument '" ++ flag.label ++ "' cannot be used multiple times"
  | .invalid flag value fault =>
    let start := "error: invalid value '" ++ value ++ "' for '" ++ flag.label ++ "'"
    match fault.message? with
    | none => start
    | some why => start ++ ": " ++ why
  | .missingFlag => "error: the following required arguments were not provided:"

/-- Why a command line leads to no run. -/
inductive Instead where
  | help
  | version
  | refused (fault : UsageFault)
deriving Repr, DecidableEq

/-- Flags with their values, in the order in which they were settled. -/
abbrev Given := List (Flag × FlagValue)

/-- A flag that is not settled yet, and its value if there is one. -/
abbrev Pending := Option (Flag × Option String)

/-- What has been read before or after the verb. -/
structure Reading where
  given : Given
  pending : Pending

namespace Reading

def start : Reading := ⟨[], none⟩

/-- Enters the value of a flag. Only some flags may be entered twice. -/
def enter (given : Given) (flag : Flag) (value : String) : Except Instead Given :=
  if !flag.isRepeatable && (given.lookup flag).isSome then .error (.refused (.repeated flag))
  else if value == "" && flag.needsText then .error (.refused (.noValue flag))
  else
    match FlagValue.read flag value with
    | .error fault => .error (.refused (.invalid flag value fault))
    | .ok read => .ok (given ++ [(flag, read)])

def settle (reading : Reading) : Except Instead Given :=
  match reading.pending with
  | none => .ok reading.given
  | some (flag, none) => .error (.refused (.noValue flag))
  | some (flag, some value) => enter reading.given flag value

def turnOn (reading : Reading) (flag : Flag) : Except Instead Reading := do
  let given ← reading.settle
  match flag with
  | .help => throw .help
  | .version => throw .version
  | _ =>
    if (given.lookup flag).isSome then throw (.refused (.repeated flag))
    return ⟨given ++ [(flag, .present)], none⟩

def attach (reading : Reading) (flag : Flag) (value : String) : Except Instead Reading := do
  let given ← reading.settle
  return ⟨← enter given flag value, none⟩

def await (reading : Reading) (flag : Flag) : Except Instead Reading := do
  let given ← reading.settle
  return ⟨given, some (flag, none)⟩

def splitAtEquals (word : List Char) : String × Option String :=
  match Parameter.splitAtEquals word with
  | none => (String.ofList word, none)
  | some (name, value) => (String.ofList name, some (String.ofList value))

def long (reading : Reading) (flags : List Flag) (word : List Char) : Except Instead Reading :=
  let (name, value) := splitAtEquals word
  match flags.find? fun flag => flag.long == name with
  | none => .error (.refused (.unexpected ("--" ++ name)))
  | some flag =>
    match flag.valueName?, value with
    | none, none => reading.turnOn flag
    | none, some needless => .error (.refused (.needlessValue flag needless))
    | some _, some value => reading.attach flag value
    | some _, none => reading.await flag

/-- Reads flags in their short spelling; what follows a flag with a value is its value, with or
without an equals sign. -/
def shorts (flags : List Flag) (reading : Reading) : List Char → Except Instead Reading
  | [] => .ok reading
  | c :: rest =>
    match flags.find? fun flag => flag.short? == some c with
    | none => .error (.refused (.unexpected ("-" ++ String.singleton c)))
    | some flag =>
      if flag.valueName?.isNone then do
        let next ← reading.turnOn flag
        shorts flags next rest
      else
        match rest with
        | [] => reading.await flag
        | '=' :: value => reading.attach flag (String.ofList value)
        | value => reading.attach flag (String.ofList value)

end Reading

inductive Word where
  /-- Two dashes: no flags follow. -/
  | lastFlag
  | long (spelling : List Char)
  | short (letters : List Char)
  | plain

def Word.of (word : String) : Word :=
  match word.toList with
  | ['-', '-'] => .lastFlag
  | '-' :: '-' :: spelling => .long spelling
  | ['-'] => .plain
  | '-' :: letters => .short letters
  | _ => .plain

def helpWord : String := "help"

def refuseTrailing (atVerb : Bool) (word : String) : UsageFault :=
  if atVerb && !(word == helpWord || (Verb.ofWord? word).isSome) then .unknownVerb word
  else .unexpected word

def readAfter (verb : Verb) (reading : Reading) : List String → Except Instead Given
  | [] => reading.settle
  | word :: rest =>
    match Word.of word with
    | .lastFlag =>
      match rest with
      | [] => reading.settle
      | next :: _ => .error (.refused (refuseTrailing false next))
    | .long spelling => do
      let next ← reading.long (Flag.allowed (some verb)) spelling
      readAfter verb next rest
    | .short letters => do
      let next ← reading.shorts (Flag.allowed (some verb)) letters
      readAfter verb next rest
    | .plain =>
      match reading.pending with
      | some (flag, none) => readAfter verb { reading with pending := some (flag, some word) } rest
      | _ => .error (.refused (.unexpected word))

/-- Answers a request for help about words. -/
def readHelp : List String → Instead
  | [] => .help
  | word :: rest =>
    if word == helpWord then readHelp rest
    else
      match Verb.ofWord? word, rest with
      | none, _ => .refused (.unknownVerb word)
      | some _, [] => .help
      | some _, other :: _ => .refused (.unknownVerb other)

/-- The words of a command line: its verb, and what was given before and after it. -/
structure Sentence where
  verb : Verb
  before : Given
  after : Given

/-- The refusal of a command line that ends before its verb. -/
def refuseEnd (reading : Reading) : Instead :=
  match reading.settle with
  | .error instead => instead
  | .ok [] => .refused .nothing
  | .ok _ => .refused .noVerb

def checkNeeded (verb : Verb) (after : Given) : Except Instead Unit :=
  if verb = .query && (after.lookup .file).isNone then .error (.refused .missingFlag) else .ok ()

/-- Reads the words up to the verb, and then the others. -/
def readBefore (reading : Reading) : List String → Except Instead Sentence
  | [] => .error (refuseEnd reading)
  | word :: rest =>
    match Word.of word with
    | .lastFlag =>
      match rest with
      | [] => .error (refuseEnd reading)
      | next :: _ => .error (.refused (refuseTrailing true next))
    | .long spelling => do
      let next ← reading.long (Flag.allowed none) spelling
      readBefore next rest
    | .short letters => do
      let next ← reading.shorts (Flag.allowed none) letters
      readBefore next rest
    | .plain =>
      match reading.pending with
      | some (flag, none) => readBefore { reading with pending := some (flag, some word) } rest
      | _ =>
        if word == helpWord then .error (readHelp rest)
        else
          match Verb.ofWord? word with
          | none => .error (.refused (.unknownVerb word))
          | some verb => do
            let after ← readAfter verb .start rest
            checkNeeded verb after
            return ⟨verb, ← reading.settle, after⟩

namespace Sentence

/-- The value of a flag; after the verb it counts more than before. -/
def value? (sentence : Sentence) (flag : Flag) : Option FlagValue :=
  (sentence.after.lookup flag).or (sentence.before.lookup flag)

def text? (sentence : Sentence) (flag : Flag) : Option String :=
  match sentence.value? flag with
  | some (.text value) => some value
  | _ => none

/-- The number that a flag was given. -/
def count? (sentence : Sentence) (flag : Flag) : Option Nat :=
  match sentence.value? flag with
  | some (.count value) => some value
  | _ => none

/-- The number with a sign that a flag was given. -/
def integer? (sentence : Sentence) (flag : Flag) : Option Int :=
  match sentence.value? flag with
  | some (.integer value) => some value
  | _ => none

def format? (sentence : Sentence) : Option Format :=
  match sentence.value? .outputFormat with
  | some (.format value) => some value
  | _ => none

/-- The query parameters in the order in which they were given. -/
def parameters (sentence : Sentence) : List Parameter :=
  sentence.after.filterMap fun entry =>
    match entry.2 with
    | .parameter value => some value
    | _ => none

/-- The width of a bin in seconds if none is given. -/
def defaultInterval : Int := 3600

/-- The number of bins if none is given. -/
def defaultBins : Nat := 200

def bins (sentence : Sentence) : Nat := (sentence.count? .bins).getD defaultBins

def task (sentence : Sentence) : Task :=
  match sentence.verb with
  | .transfers => .draw (.transfers ((sentence.integer? .interval).getD defaultInterval))
  | .durations => .draw (.durations sentence.bins)
  | .fileSizes => .draw (.fileSizes sentence.bins)
  | .replicas => .draw .replicas
  | .traffic => .draw .traffic
  | .query =>
    .draw (.query ((sentence.text? .file).getD "") sentence.parameters sentence.bins)
  | .updateSku =>
    .updateSku ((sentence.text? .config).getD "config/gcp_default.json")
      ((sentence.text? .skus).getD "skus.json")
      ((sentence.text? .output).getD "config/new_gcp_default.json")

def arguments (sentence : Sentence) : Arguments where
  task := sentence.task
  dbConfig := (sentence.text? .dbConfig).getD Connection.defaultPath
  queriesDir := sentence.text? .queriesDir
  outDir := (sentence.text? .outDir).getD ChartSettings.usual.directory
  width := (sentence.count? .width).getD ChartSettings.defaultWidth
  height := (sentence.count? .height).getD ChartSettings.defaultHeight
  format := sentence.format?.getD .text
  outfile := sentence.text? .outfile
  quiet := (sentence.value? .quiet).isSome

end Sentence

/-- Understands a command line. -/
def Arguments.parse (words : List String) : Except Instead Arguments :=
  (readBefore .start words).map Sentence.arguments

end GridReport.Command
