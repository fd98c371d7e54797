import AccelProfile.Decimal.Reading
import AccelProfile.Words
/-!
# Command line arguments

The arguments of the one command, `replay`. Every option but one takes a value, in the
same argument behind an equals sign or in the next argument; a short name may also have
its value right behind it. A value in an argument of its own does not look like an
option. No option comes twice, and nothing but options follows the command.
-/

namespace AccelProfile

/-- What a replay is asked for. -/
structure ReplayOptions where
  /-- The path of the trace. -/
  trace : String
  config : Option String
  /-- The path of the document, in place of the configured one. -/
  output : Option String
  /-- A list of switches, in addition to the configured ones. -/
  debugFlags : Option String
  name : String
  /-- The clock period in nanoseconds. -/
  clockPeriod : Nat
  /-- The time of the setup in nanoseconds. -/
  setupTime : Float
  /-- Whether to run without an engine. -/
  noStats : Bool

namespace CommandLine

/-- The options of the command. -/
inductive Key
  | trace
  | config
  /-- The path of the document. -/
  | output
  /-- A list of switches. -/
  | debugFlags
  | name
  /-- The clock period. -/
  | clockPeriod
  /-- The time of the setup. -/
  | setupTime
  /-- Run without an engine. -/
  | noStats
  deriving DecidableEq, Repr

namespace Key

/-- All options. -/
def all : List Key :=
  [.trace, .config, .output, .debugFlags, .name, .clockPeriod, .setupTime, .noStats]

/-- The name of an option behind two dashes. -/
def longName : Key → String
  | .trace => "trace"
  | .config => "config"
  | .output => "output"
  | .debugFlags => "debug-flags"
  | .name => "name"
  | .clockPeriod => "clock-period"
  | .setupTime => "setup-ns"
  | .noStats => "no-stats"

/-- The name of an option behind one dash, if it has one. -/
def shortName? : Key → Option Char
  | .trace => some 't'
  | .config => some 'c'
  | .output => some 'o'
  | .name => some 'n'
  | .debugFlags | .clockPeriod | .setupTime | .noStats => none

/-- Whether an option takes a value. -/
def takesValue : Key → Bool
  | .noStats => false
  | _ => true

/-- The option with a long name. -/
def ofLong? (name : List Char) : Option Key :=
  all.find? fun key => key.longName.toList = name

/-- The option with a short name. -/
def ofShort? (letter : Char) : Option Key :=
  all.find? fun key => key.shortName? = some letter

end Key

/-- What one argument says. -/
inductive Word
  /-- An option with all that belongs to it. -/
  | whole (key : Key) (value : String)
  /-- An option whose value is the next argument. -/
  | awaiting (key : Key)
  /-- The end of the options. -/
  | stop

/-- Reads one argument. -/
def readWord? (argument : List Char) : Option Word :=
  match argument with
  | ['-', '-'] => some .stop
  | '-' :: '-' :: rest => do
    let key ← Key.ofLong? (rest.takeWhile (· ≠ '='))
    match rest.dropWhile (· ≠ '='), key.takesValue with
    | '=' :: value, true => some (.whole key (String.ofList value))
    | [], true => some (.awaiting key)
    | [], false => some (.whole key "")
    | _, _ => none
  | '-' :: letter :: rest => do
    let key ← Key.ofShort? letter
    match rest with
    | [] => some (.awaiting key)
    | '=' :: value => some (.whole key (String.ofList value))
    | value => some (.whole key (String.ofList value))
  | _ => none

/-- Whether an argument can be the value of the option before it: a lone dash can, and
    anything else that does not start with a dash. -/
def isValue (argument : String) : Bool :=
  argument = "-" || argument.toList.head? ≠ some '-'

/-- The options of a list of arguments with their values. -/
def readWords? : List String → Option (List (Key × String))
  | [] => some []
  | argument :: others =>
    match readWord? argument.toList with
    | some (.whole key value) => (readWords? others).map ((key, value) :: ·)
    | some (.awaiting key) =>
      match others with
      | [] => none
      | value :: others =>
        if isValue value then (readWords? others).map ((key, value) :: ·) else none
    | some .stop => if others.isEmpty then some [] else none
    | none => none

/-- The value of an option that is a path; a path is not empty. -/
def readPath? (value : String) : Option String :=
  if value = "" then none else some value

/-- The value of an option that is a word: digits, with a plus sign or without. -/
def readNumber? (value : String) : Option Nat :=
  let digits := match value.toList with
    | '+' :: rest => rest
    | text => text
  let number := Nat.ofDigitChars 10 digits 0
  if digits ≠ [] ∧ digits.all Char.isDigit ∧ number ≤ maxWord then some number else none

/-- The value of an option that may be absent, if it can be read. -/
def readOptional? {α : Type} (read? : String → Option α) : Option String → Option (Option α)
  | none => some none
  | some value => (read? value).map some

/-- The options of a replay. -/
def readOptions? (given : List (Key × String)) : Option ReplayOptions := do
  if ¬ (given.map Prod.fst).Nodup then none
  let value? (key : Key) := given.lookup key
  let trace ← readPath? (← value? .trace)
  let config ← readOptional? readPath? (value? .config)
  let output ← readOptional? readPath? (value? .output)
  let clockPeriod ← readOptional? readNumber? (value? .clockPeriod)
  let setupTime ← readOptional? (fun value => Decimal.read? value.toList) (value? .setupTime)
  return { trace, config, output
           debugFlags := value? .debugFlags
           name := (value? .name).getD "accelerator"
           clockPeriod := clockPeriod.getD 10
           setupTime := setupTime.getD 0
           noStats := (value? .noStats).isSome }

/-- The replay that a list of arguments asks for, if they are well formed. -/
def parse? : List String → Option ReplayOptions
  | "replay" :: arguments => readWords? arguments >>= readOptions?
  | _ => none

end CommandLine

end AccelProfile
