import GridReport.Parameter
import GridReport.Tick

/-!
The flags of the command line, and the values that they take.
-/

namespace GridReport.Command

/-- A word that chooses what a run does. -/
inductive Verb where
  | transfers
  | durations
  | fileSizes
  | replicas
  | traffic
  | query
  | updateSku
deriving Repr, DecidableEq

namespace Verb

def all : List Verb :=
  [.transfers, .durations, .fileSizes, .replicas, .traffic, .query, .updateSku]

def word : Verb → String
  | .transfers => "transfers"
  | .durations => "durations"
  | .fileSizes => "filesize"
  | .replicas => "replicas"
  | .traffic => "traffic"
  | .query => "query"
  | .updateSku => "update-sku"

def ofWord? (given : String) : Option Verb := all.find? fun verb => verb.word == given

end Verb

/-- How a summary is written. -/
inductive Format where
  | text
  | json
deriving Repr, DecidableEq

inductive Flag where
  | dbConfig
  | queriesDir
  | outDir
  | width
  | height
  | outputFormat
  | outfile
  | quiet
  | interval
  | bins
  | file
  | param
  | config
  | skus
  | output
  | help
  | version
deriving Repr, DecidableEq

namespace Flag

/-- The long spelling, without its dashes. -/
def long : Flag → String
  | .dbConfig => "db-config"
  | .queriesDir => "queries-dir"
  | .outDir => "out-dir"
  | .width => "width"
  | .height => "height"
  | .outputFormat => "output-format"
  | .outfile => "outfile"
  | .quiet => "quiet"
  | .interval => "interval"
  | .bins => "bins"
  | .file => "file"
  | .param => "param"
  | .config => "config"
  | .skus => "skus"
  | .output => "output"
  | .help => "help"
  | .version => "version"

/-- The short spelling, without its dash. -/
def short? : Flag → Option Char
  | .outDir => some 'O'
  | .outfile => some 'o'
  | .quiet => some 'q'
  | .help => some 'h'
  | .version => some 'V'
  | _ => none

/-- What the value of a flag is called; a flag without one is on or off. -/
def valueName? : Flag → Option String
  | .dbConfig => some "FILE"
  | .queriesDir => some "DIR"
  | .outDir => some "DIR"
  | .width => some "WIDTH"
  | .height => some "HEIGHT"
  | .outputFormat => some "OUTPUT_FORMAT"
  | .outfile => some "FILE"
  | .quiet => none
  | .interval => some "INTERVAL"
  | .bins => some "BINS"
  | .file => some "FILE"
  | .param => some "NAME=VALUE"
  | .config => some "FILE"
  | .skus => some "FILE"
  | .output => some "FILE"
  | .help => none
  | .version => none

/-- The flag may be given more than once. -/
def isRepeatable (flag : Flag) : Bool := flag == .param

def label (flag : Flag) : String :=
  match flag.valueName? with
  | none => "--" ++ flag.long
  | some name => "--" ++ flag.long ++ " <" ++ name ++ ">"

/-- The flags that may stand before and after the verb. -/
def everywhere : List Flag :=
  [.dbConfig, .queriesDir, .outDir, .width, .height, .outputFormat, .outfile, .quiet, .help]

def ofVerb : Verb → List Flag
  | .transfers => [.interval]
  | .durations => [.bins]
  | .fileSizes => [.bins]
  | .replicas => []
  | .traffic => []
  | .query => [.file, .param, .bins]
  | .updateSku => [.config, .skus, .output]

/-- The flags that may stand after a verb, or before one. -/
def allowed : Option Verb → List Flag
  | none => everywhere ++ [.version]
  | some verb => everywhere ++ ofVerb verb

end Flag

inductive IntegerFault where
  | empty
  | notDigit
  | tooLarge
  | tooSmall
deriving Repr, DecidableEq

def IntegerFault.message : IntegerFault → String
  | .empty => "cannot parse integer from empty string"
  | .notDigit => "invalid digit found in string"
  | .tooLarge => "number too large to fit in target type"
  | .tooSmall => "number too small to fit in target type"

namespace Integer

/-- Reads digits from the left; the first digit that is none, or that leads past the limit, decides
the fault. -/
def readDigits (limit : Nat) (past : IntegerFault) (value : Nat) : List Char →
    Except IntegerFault Nat
  | [] => .ok value
  | c :: rest =>
    if c.isDigit then
      let next := 10 * value + (c.toNat - 48)
      if next ≤ limit then readDigits limit past next rest else .error past
    else .error .notDigit

def readMagnitude (limit : Nat) (past : IntegerFault) : List Char → Except IntegerFault Nat
  | [] => .error .notDigit
  | digits => readDigits limit past 0 digits

def readSigned (given : String) : Except IntegerFault Int :=
  match given.toList with
  | [] => .error .empty
  | '-' :: digits =>
    (readMagnitude Tick.least.natAbs .tooSmall digits).map fun (n : Nat) => -(n : Int)
  | '+' :: digits => (readMagnitude Tick.greatest.toNat .tooLarge digits).map Int.ofNat
  | digits => (readMagnitude Tick.greatest.toNat .tooLarge digits).map Int.ofNat

/-- The greatest integer of 64 bits without a sign. -/
def greatestUnsigned : Nat := 18446744073709551615

def readUnsigned (given : String) : Except IntegerFault Nat :=
  match given.toList with
  | [] => .error .empty
  | '+' :: digits => readMagnitude greatestUnsigned .tooLarge digits
  | digits => readMagnitude greatestUnsigned .tooLarge digits

end Integer

/-- Why a value does not fit its flag. -/
inductive ValueFault where
  | notInteger (fault : IntegerFault)
  /-- A number of pixels that does not fit into 32 bits. -/
  | pixels (given : Int)
  | unknownFormat
  | parameter (fault : ParameterFault)
deriving Repr, DecidableEq

def greatestPixels : Int := 4294967295

/-- The sentence for a value fault, if there is more to say than that the value does not fit. -/
def ValueFault.message? : ValueFault → Option String
  | .notInteger fault => some fault.message
  | .pixels given => some (toString given ++ " is not in 0..=" ++ toString greatestPixels)
  | .unknownFormat => none
  | .parameter fault => some fault.message

inductive FlagValue where
  /-- The flag is on. -/
  | present
  | text (value : String)
  | integer (value : Int)
  | count (value : Nat)
  | format (value : Format)
  | parameter (value : Parameter)

namespace FlagValue

def readPixels (given : String) : Except ValueFault FlagValue :=
  match Integer.readSigned given with
  | .error fault => .error (.notInteger fault)
  | .ok value =>
    if 0 ≤ value && value ≤ greatestPixels then .ok (.count value.toNat) else .error (.pixels value)

def readFormat : String → Except ValueFault FlagValue
  | "text" => .ok (.format .text)
  | "json" => .ok (.format .json)
  | _ => .error .unknownFormat

def read (flag : Flag) (given : String) : Except ValueFault FlagValue :=
  match flag with
  | .width => readPixels given
  | .height => readPixels given
  | .interval => ((Integer.readSigned given).map FlagValue.integer).mapError .notInteger
  | .bins => ((Integer.readUnsigned given).map FlagValue.count).mapError .notInteger
  | .outputFormat => readFormat given
  | .param => ((Parameter.parse given).map FlagValue.parameter).mapError .parameter
  | _ => .ok (.text given)

end FlagValue

/-- The flag has no use for an empty value. A path leads nowhere then, and a format has a name; all
others read an empty value and may refuse it themselves. -/
def Flag.needsText : Flag → Bool
  | .dbConfig | .queriesDir | .outDir | .outputFormat | .file | .config | .skus | .output => true
  | _ => false

end GridReport.Command
