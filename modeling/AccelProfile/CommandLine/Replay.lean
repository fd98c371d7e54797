import AccelProfile.Accelerator
import AccelProfile.CommandLine.Arguments
import AccelProfile.CommandLine.Console
import AccelProfile.Trace
/-!
# Replaying a trace

The command as a function: from its options, the environment and the files that can be
read to an exit code, what is printed and which files are to be written. Configuration
and trace are both read before the run starts, and nothing is printed and nothing written
unless both are accepted.

Two things can stand in the way of a run after that. Its engine may find no room for the
samples that the configuration asks for; then the run stops before its first event. And the
console may refuse what is printed. What is printed before the files are written may get
lost, and so may a file; but the run fails if the digest at its end is refused.

A path that leads to a directory can be opened and not be read. For a configuration that
is a fault of the file; for a trace it is one of its first line.
-/

namespace AccelProfile.CommandLine

/-- What a path leads to, as far as the command can see it. -/
abbrev View := String → Except FileFault Entry

/-- The configuration in a file. -/
def readConfig (view : View) (path : String) : Except RunError Config :=
  match view path with
  | .error fault => .error (.file path fault)
  | .ok .directory => .error (.file path .isDirectory)
  | .ok (.file bytes) =>
    match Trace.decode? bytes with
    | none => .error (.file path .notText)
    | some text => Config.ofText text

/-- The switches that the configuration, the environment and the command line set
    together. -/
def unitedFlags (configured : DebugFlags) (environment option : Option String) : DebugFlags :=
  (configured.union (environment.elim .none DebugFlags.parse)).union
    (option.elim .none DebugFlags.parse)

/-- The configuration of a run: that of the file, changed by the options. -/
def loadConfig (options : ReplayOptions) (environment : Option String) (view : View) :
    Except RunError Config := do
  let config ← match options.config with
    | some path => readConfig view path
    | none => .ok .standard
  { config with
    outputFile := options.output <|> config.outputFile
    debugFlags := unitedFlags config.debugFlags environment options.debugFlags }.validate

/-- The events of the trace in a file. -/
def loadTrace (view : View) (path : String) : Except RunError (List Event) :=
  match view path with
  | .error fault => .error (.file path fault)
  | .ok .directory => .error (.trace ⟨1, .file .isDirectory⟩)
  | .ok (.file bytes) =>
    match Trace.parse bytes with
    | .error error => .error (.trace error)
    | .ok events => .ok events

/-- What a run prints and which files it writes, in order. -/
structure Report where
  /-- What is printed before the files are written. It may be refused. -/
  opening : String
  /-- What is printed last, if anything is. The run fails if it is refused. -/
  digest : Option String
  /-- The files to be written. -/
  files : List OutputFile
  deriving DecidableEq

/-- The accelerator of a run before its first event, if there is room for its samples. -/
def newAccelerator? (machine : Machine) (options : ReplayOptions) (config : Config) :
    Except ReservationFault Accelerator :=
  if options.noStats then .ok (.withoutEngine options.name)
  else Accelerator.withEngine? machine options.name config

/-- The end of a run of an accelerator over the events of a trace. The simulated time is that
    of all its cycles. -/
def close (options : ReplayOptions) (accelerator : Accelerator) (events : List Event) :
    Closing :=
  let accelerator := accelerator.replay events
  let simTime := accelerator.totalCycles.toFloat * options.clockPeriod.toFloat
  accelerator.finalize options.setupTime simTime options.clockPeriod

/-- How the command ends. -/
inductive Outcome
  /-- The arguments are not well formed. -/
  | misused
  /-- The input is rejected or cannot be read. -/
  | failed (error : RunError)
  /-- There is no room for the samples of the run. -/
  | stopped (fault : ReservationFault)
  /-- The digest of the run is refused. -/
  | unprinted (report : Report) (fault : FileFault)
  /-- The run succeeds. -/
  | done (report : Report)
  deriving DecidableEq

namespace Report

/-- The report of a run: what its end prints, and the digest of its summary. -/
def ofClosing (closing : Closing) : Report :=
  match closing.result with
  | .structured summary => ⟨closing.console, some summary.digestText, closing.files⟩
  | .reduced _ => ⟨closing.console, none, closing.files⟩

/-- All that is to be printed. -/
def console (report : Report) : String :=
  report.opening ++ report.digest.getD ""

/-- Why a console refuses the digest, if it does. -/
def refusal? (report : Report) (console : Console) : Option FileFault :=
  report.digest.bind fun digest => (console [report.opening] digest).2

/-- What comes out of a console. -/
def printed (report : Report) (console : Console) : List UInt8 :=
  (console [] report.opening).1 ++
    report.digest.elim [] fun digest => (console [report.opening] digest).1

/-- How the command ends with a report whose digest may have been refused. -/
def conclude (report : Report) : Option FileFault → Outcome
  | some fault => .unprinted report fault
  | none => .done report

end Report

/-- The report of a replay, or how the command ends without one. -/
def prepare (machine : Machine) (options : ReplayOptions) (environment : Option String)
    (view : View) : Except Outcome Report := do
  let config ← (loadConfig options environment view).mapError .failed
  let events ← (loadTrace view options.trace).mapError .failed
  let accelerator ← (newAccelerator? machine options config).mapError .stopped
  return .ofClosing (close options accelerator events)

/-- The name of the console in an error. -/
def consolePath : String := "<stdout>"

/-- The exit code of a run that stops for want of memory. -/
def stopCode : ReservationFault → UInt32
  | .overflow | .tooLarge => 101
  | .exhausted _ => 134

namespace Outcome

/-- The exit code: a file that cannot be read, and a console that cannot be written to, are
    told from input that is rejected. -/
def exitCode : Outcome → UInt32
  | .misused => 2
  | .failed (.file ..) | .unprinted .. => 3
  | .failed _ => 1
  | .stopped fault => stopCode fault
  | .done _ => 0

/-- The error that is told to the user. -/
def error? : Outcome → Option RunError
  | .failed error => some error
  | .unprinted _ fault => some (.file consolePath fault)
  | .misused | .stopped _ | .done _ => none

/-- The report of a run that came to its end. -/
def report? : Outcome → Option Report
  | .unprinted report _ | .done report => some report
  | .misused | .failed _ | .stopped _ => none

/-- What is to be printed. -/
def console (outcome : Outcome) : String :=
  outcome.report?.elim "" Report.console

/-- What comes out of a console. -/
def printed (outcome : Outcome) (console : Console) : List UInt8 :=
  outcome.report?.elim [] (·.printed console)

/-- The files to be written, in order. -/
def files (outcome : Outcome) : List OutputFile :=
  outcome.report?.elim [] Report.files

end Outcome

/-- What the arguments ask for, as a report or as an end without one. -/
def plan (machine : Machine) (arguments : List String) (environment : Option String)
    (view : View) : Except Outcome Report :=
  match parse? arguments with
  | none => .error .misused
  | some options => prepare machine options environment view

/-- Runs the command on a machine, with a console. -/
def runOn (machine : Machine) (console : Console) (arguments : List String)
    (environment : Option String) (view : View) : Outcome :=
  match plan machine arguments environment view with
  | .error outcome => outcome
  | .ok report => report.conclude (report.refusal? console)

/-- Runs the command where all memory that can be asked for is there and nothing that is
    printed is refused. -/
def run (arguments : List String) (environment : Option String) (view : View) : Outcome :=
  runOn .spacious .patient arguments environment view

end AccelProfile.CommandLine
