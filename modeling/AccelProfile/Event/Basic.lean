import AccelProfile.CycleWindow
import AccelProfile.Dependency
import AccelProfile.FunctionalUnit
import AccelProfile.Memory
import AccelProfile.Power
/-!
# Events

What an accelerator tells about a run, one happening at a time. Events carry what the
happening is about and nothing of what is made of it. The kind of an event is a type of
its own: it is what tells the events of a trace apart.
-/

namespace AccelProfile

/-- The kinds of events. -/
inductive EventKind
  | dependency
  | commit
  | stall
  | noStall
  | parallelism
  | cycleStart
  | cycleEnd
  | memoryRead
  | memoryWrite
  | portContention
  | busWidths
  | fuBusy
  | fuContention
  | fuInstances
  | power
  | area
  deriving DecidableEq, Repr, Inhabited

namespace EventKind

/-- All kinds. -/
def all : List EventKind :=
  [.dependency, .commit, .stall, .noStall, .parallelism, .cycleStart, .cycleEnd, .memoryRead,
    .memoryWrite, .portContention, .busWidths, .fuBusy, .fuContention, .fuInstances, .power,
    .area]

/-- The name of a kind. -/
def name : EventKind → String
  | .dependency => "dependency"
  | .commit => "commit"
  | .stall => "stall"
  | .noStall => "no_stall"
  | .parallelism => "parallelism"
  | .cycleStart => "cycle_start"
  | .cycleEnd => "cycle_end"
  | .memoryRead => "memory_read"
  | .memoryWrite => "memory_write"
  | .portContention => "port_contention"
  | .busWidths => "bus_widths"
  | .fuBusy => "fu_busy"
  | .fuContention => "fu_contention"
  | .fuInstances => "fu_instances"
  | .power => "power"
  | .area => "area"

end EventKind

/-- One happening of a run. -/
inductive Event
  /-- An instruction had to wait for another one. -/
  | dependency (edge : Edge)
  /-- An instruction committed. -/
  | commit (uid : Uid) (opcode : Opcode) (isLoad isStore : Bool)
  /-- A cycle made no progress. -/
  | stall (cause : StallCause)
  /-- A cycle made progress. -/
  | noStall
  /-- The ready and issued instructions of a cycle. -/
  | parallelism (ready issued : UInt64)
  /-- A cycle starts. -/
  | cycleStart
  /-- A cycle ends, with the sample of its queues if one was taken. -/
  | cycleEnd (cycle : UInt64) (sample : Option CycleSample)
  /-- A read from memory completed. -/
  | memoryRead (access : MemoryAccess)
  /-- A write to memory completed. -/
  | memoryWrite (access : MemoryAccess)
  /-- A request found all memory ports busy. -/
  | portContention (isRead : Bool)
  /-- The widths of the memory buses in bytes per cycle. -/
  | busWidths (read write : UInt64)
  /-- An operation held a functional unit from a start up to an end. -/
  | fuBusy (fu : FuClass) (start stop : UInt64)
  /-- A request found all functional units of a class busy. -/
  | fuContention (fu : FuClass)
  /-- The number of functional units of a class. -/
  | fuInstances (fu : FuClass) (count : UInt32)
  /-- The power of the parts. -/
  | power (inputs : PowerInputs)
  /-- The area of the parts. -/
  | area (inputs : AreaInputs)
  deriving DecidableEq

/-- The kind of an event. -/
def Event.kind : Event → EventKind
  | .dependency _ => .dependency
  | .commit .. => .commit
  | .stall _ => .stall
  | .noStall => .noStall
  | .parallelism .. => .parallelism
  | .cycleStart => .cycleStart
  | .cycleEnd .. => .cycleEnd
  | .memoryRead _ => .memoryRead
  | .memoryWrite _ => .memoryWrite
  | .portContention _ => .portContention
  | .busWidths .. => .busWidths
  | .fuBusy .. => .fuBusy
  | .fuContention _ => .fuContention
  | .fuInstances .. => .fuInstances
  | .power _ => .power
  | .area _ => .area

end AccelProfile
