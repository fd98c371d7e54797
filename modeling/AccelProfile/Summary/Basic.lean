import AccelProfile.CycleWindow
import AccelProfile.Dataflow
import AccelProfile.FunctionalUnit
import AccelProfile.Memory
import AccelProfile.Performance
import AccelProfile.Power
/-!
# The summary of a run

Everything that one accelerator reports at the end of a run, section by section. Some
sections are filled while the run goes on, others are handed over at its end. The summary
of the cycle window is there only if cycles were sampled.
-/

namespace AccelProfile

/-- What one accelerator reports. -/
structure Summary where
  acceleratorName : String
  /-- Times and cycles. -/
  performance : Performance
  /-- Memory requests. -/
  memory : MemoryTraffic
  /-- Dependencies, depths and parallelism. -/
  dataflow : Dataflow
  units : FuUsage
  power : Power
  area : Area
  stalls : StallBreakdown
  /-- The window of cycle samples. -/
  cycles : Option CycleSummary
  deriving Inhabited

namespace Summary

/-- The summary of a run in which nothing happened yet. -/
def empty : Summary where
  acceleratorName := ""
  performance := .empty
  memory := .empty
  dataflow := .empty
  units := .empty
  power := .empty
  area := .empty
  stalls := .empty
  cycles := none

/-- The sections as they are kept, with all their counters. -/
def toJson (summary : Summary) : Json :=
  .obj [("accelerator_name", .str summary.acceleratorName),
    ("performance", summary.performance.toJson), ("memory_access", summary.memory.toJson),
    ("dataflow", summary.dataflow.toJson), ("fu_utilization", summary.units.toJson),
    ("power", summary.power.toJson), ("area", summary.area.toJson),
    ("stalls", summary.stalls.toJson), ("cycle_summary", .ofOption (·.toJson) summary.cycles)]

end Summary

end AccelProfile
