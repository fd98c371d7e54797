import AccelProfile.Engine
/-!
# Accelerators

An accelerator with the engine that accounts for it. The engine can be missing: it was
never there, was detached, or was taken by the end of an earlier run. The accelerator
counts its cycles, stalls and commits by itself, so even then its end has something to
report, and nothing that happens later brings an engine back.
-/

namespace AccelProfile

/-- What an accelerator reports when its engine is missing. -/
structure ReducedReport where
  acceleratorName : String
  /-- The time of the setup in nanoseconds. -/
  setupTime : Float
  /-- The simulated time in nanoseconds. -/
  simTime : Float
  /-- The clock period in nanoseconds. -/
  clockPeriod : Nat
  totalCycles : Nat
  stallCycles : Nat
  committed : Nat
  deriving DecidableEq

namespace ReducedReport

/-- The lines of the report. -/
def lines (report : ReducedReport) : List String :=
  ["=== " ++ report.acceleratorName ++ " (reduced statistics) ===",
    "Setup time:             " ++ displayText report.setupTime ++ " ns",
    "Simulation time:        " ++ displayText report.simTime ++ " ns",
    "Clock period:           " ++ toString report.clockPeriod ++ " ns",
    "Total cycles:           " ++ toString report.totalCycles,
    "Stall cycles:           " ++ toString report.stallCycles,
    "Committed instructions: " ++ toString report.committed]

/-- The report: its lines, each with an end of line behind it. -/
def text (report : ReducedReport) : String :=
  String.join (report.lines.map (· ++ "\n"))

/-- The report as an object. -/
def toJson (report : ReducedReport) : Json :=
  .obj [("accelerator_name", .str report.acceleratorName),
    ("setup_time_ns", .ofFloat report.setupTime), ("sim_time_ns", .ofFloat report.simTime),
    ("clock_period_ns", .ofNat report.clockPeriod), ("total_cycles", .ofNat report.totalCycles),
    ("stall_cycles", .ofNat report.stallCycles),
    ("committed_instructions", .ofNat report.committed)]

end ReducedReport

/-- What the end of a run gives. -/
inductive Finalized
  /-- The summary of the engine. -/
  | structured (summary : Summary)
  /-- The counts of the accelerator, where the engine was missing. -/
  | reduced (report : ReducedReport)

/-- An accelerator. -/
structure Accelerator where
  name : String
  /-- The engine, unless it is missing. -/
  engine : Option Engine
  /-- The largest cycle number that ended, or the number of ended cycles if that is
      larger. -/
  totalCycles : Nat
  endedCycles : Nat
  stallCycles : Nat
  committed : Nat

/-- The end of a run: what it gives, what it prints and which files it writes, in order. -/
structure Closing where
  /-- What the end gives. -/
  result : Finalized
  /-- What it prints. -/
  console : String
  /-- The files that it writes. -/
  files : List OutputFile
  /-- The accelerator afterwards. -/
  accelerator : Accelerator

namespace Accelerator

/-- An accelerator whose engine was never there. -/
def withoutEngine (name : String) : Accelerator :=
  ⟨name, none, 0, 0, 0, 0⟩

/-- An accelerator with an engine. -/
def withEngine (name : String) (config : Config) : Accelerator :=
  { withoutEngine name with engine := some ((Engine.start config).setName name) }

/-- An accelerator with an engine, if there is room for the samples. -/
def withEngine? (machine : Machine) (name : String) (config : Config) :
    Except ReservationFault Accelerator :=
  (Engine.start? machine config).map fun engine =>
    { withoutEngine name with engine := some (engine.setName name) }

/-- The accelerator with its own counts moved by an event. Cycles may be numbered from
    zero or from one: every ended cycle counts in either case. -/
def count (accelerator : Accelerator) : Event → Accelerator
  | .commit .. => { accelerator with committed := accelerator.committed + 1 }
  | .stall _ => { accelerator with stallCycles := accelerator.stallCycles + 1 }
  | .cycleEnd cycle _ =>
    let endedCycles := accelerator.endedCycles + 1
    { accelerator with
      endedCycles
      totalCycles := max (max accelerator.totalCycles cycle.toNat) endedCycles }
  | _ => accelerator

/-- Tells an event to the accelerator and to its engine, if it is there. -/
def apply (accelerator : Accelerator) (event : Event) : Accelerator :=
  { accelerator.count event with engine := accelerator.engine.map (·.apply event) }

/-- Tells the events of a trace, one after the other. -/
def replay (accelerator : Accelerator) (events : List Event) : Accelerator :=
  events.foldl apply accelerator

/-- Takes the engine out of the accelerator. -/
def detach (accelerator : Accelerator) : Accelerator :=
  { accelerator with engine := none }

/-- The counts of the accelerator under these times. -/
def reducedReport (accelerator : Accelerator) (setupTime simTime : Float)
    (clockPeriod : Nat) : ReducedReport where
  acceleratorName := accelerator.name
  setupTime
  simTime
  clockPeriod
  totalCycles := accelerator.totalCycles
  stallCycles := accelerator.stallCycles
  committed := accelerator.committed

/-- The engine as the end of a run leaves it, with the accelerator's name and cycles. -/
def closeEngine (accelerator : Accelerator) (engine : Engine) (setupTime simTime : Float)
    (clockPeriod : Nat) : Engine :=
  let performance := Performance.collect setupTime simTime clockPeriod
    accelerator.totalCycles accelerator.stallCycles
  (((engine.setName accelerator.name).setPerformance performance).analyse).summarizeCycles

/-- Ends the run. The engine is taken out of the accelerator and gives its summary; where
    it is missing, the counts of the accelerator have to do. -/
def finalize (accelerator : Accelerator) (setupTime simTime : Float) (clockPeriod : Nat) :
    Closing :=
  match accelerator.engine with
  | some engine =>
    let closed := accelerator.closeEngine engine setupTime simTime clockPeriod
    ⟨.structured closed.summary, closed.consoleText, closed.outputFiles, accelerator.detach⟩
  | none =>
    let report := accelerator.reducedReport setupTime simTime clockPeriod
    ⟨.reduced report, report.text, [], accelerator⟩

/-- Where the engine is there, the run ends with what the closed engine says. -/
theorem finalize_of_some {accelerator : Accelerator} {engine : Engine}
    (present : accelerator.engine = some engine) (setupTime simTime : Float) (clockPeriod : Nat) :
    accelerator.finalize setupTime simTime clockPeriod =
      let closed := accelerator.closeEngine engine setupTime simTime clockPeriod
      ⟨.structured closed.summary, closed.consoleText, closed.outputFiles, accelerator.detach⟩ := by
  simp only [finalize, present]

/-- Where it is missing, the run ends with the counts of the accelerator. -/
theorem finalize_of_none {accelerator : Accelerator} (missing : accelerator.engine = none)
    (setupTime simTime : Float) (clockPeriod : Nat) :
    accelerator.finalize setupTime simTime clockPeriod =
      let report := accelerator.reducedReport setupTime simTime clockPeriod
      ⟨.reduced report, report.text, [], accelerator⟩ := by
  simp only [finalize, missing]

end Accelerator

end AccelProfile
