import AccelProfile.Json.Value
import AccelProfile.Words
/-!
# Performance

Times and cycle counts of a run, as they are handed over when it ends, and what follows
from them.
-/

namespace AccelProfile

/-- Times and cycles of a run. -/
structure Performance where
  /-- The time of the setup in nanoseconds. -/
  setupTime : Float
  /-- The simulated time in nanoseconds. -/
  simTime : Float
  /-- The clock period in nanoseconds. -/
  clockPeriod : Nat
  /-- The clock frequency in gigahertz. -/
  clockFrequency : Float
  totalCycles : Nat
  stallCycles : Nat
  /-- The cycles that executed something. -/
  executedNodes : Nat
  deriving DecidableEq, Inhabited

namespace Performance

/-- The section of a run that has not ended. -/
def empty : Performance :=
  ⟨0, 0, 0, 0, 0, 0, 0⟩

/-- The section of a run with these times and cycles. A clock without a period has no
    frequency. The last cycle drains the pipeline and executes nothing. -/
def collect (setupTime simTime : Float) (clockPeriod totalCycles stallCycles : Nat) :
    Performance where
  setupTime
  simTime
  clockPeriod
  clockFrequency := if clockPeriod = 0 then 0 else 1 / clockPeriod.toFloat
  totalCycles
  stallCycles
  executedNodes := totalCycles - stallCycles - 1

/-- Setup and simulation together. -/
def totalTime (performance : Performance) : Float :=
  performance.setupTime + performance.simTime

/-- The cycles in nanoseconds. -/
def runtime (performance : Performance) : Float :=
  performance.totalCycles.toFloat * performance.clockPeriod.toFloat

/-- The cycles that did not stall. -/
def activeCycles (performance : Performance) : Nat :=
  performance.totalCycles - performance.stallCycles

/-- Executed nodes per cycle. -/
def ipc (performance : Performance) : Float :=
  ratio performance.executedNodes performance.totalCycles

/-- The section as an object. -/
def toJson (performance : Performance) : Json :=
  .obj [("setup_time_ns", .ofFloat performance.setupTime),
    ("sim_time_ns", .ofFloat performance.simTime),
    ("clock_period_ns", .ofNat performance.clockPeriod),
    ("sys_clock_ghz", .ofFloat performance.clockFrequency),
    ("total_cycles", .ofNat performance.totalCycles),
    ("stall_cycles", .ofNat performance.stallCycles),
    ("executed_nodes", .ofNat performance.executedNodes)]

end Performance

end AccelProfile
