import AccelProfile.Config
import AccelProfile.Event.Basic
import AccelProfile.Report.Digest
import AccelProfile.Report.Output
/-!
# The statistics engine

The accounting of one accelerator: the graph of its dependencies, the window of its cycle
samples if cycles are sampled, the last analysis of the critical path, and the summary
under way. An event moves the parts that it is about and no others.

The dependencies of an instruction have to come before its commit, since the commit looks
at the depth that the instruction has at that moment.
-/

namespace AccelProfile

/-- The accounting of one accelerator. -/
structure Engine where
  /-- What the engine is asked to record and to write. -/
  config : Config
  /-- The instructions seen so far and their dependencies. -/
  graph : DependencyGraph
  /-- The cycle samples, if cycles are sampled. -/
  window : Option CycleWindow
  /-- The last analysis of the critical path, if there was one. -/
  path : Option CriticalPath
  /-- The summary under way. -/
  summary : Summary

namespace Engine

/-- The engine of a run that has not started. -/
def start (config : Config) : Engine where
  config
  graph := .empty
  window := if config.cycleTracking then some (.ofBuffer config.bufferSize.toNat) else none
  path := none
  summary := .empty

/-- The engine of a run that has not started, if there is room for its samples. -/
def start? (machine : Machine) (config : Config) : Except ReservationFault Engine :=
  if config.cycleTracking then
    (CycleWindow.reserve? machine config.bufferSize).map fun window =>
      { start config with window := some window }
  else .ok (start config)

/-- Records a dependency. The largest depth of the summary follows that of the graph. -/
def recordDependency (engine : Engine) (edge : Edge) : Engine :=
  let (graph, moved) := engine.graph.record edge.producer edge.consumer
  let dataflow := engine.summary.dataflow.countEdge edge.kinds
  { engine with
    graph
    summary := { engine.summary with
      dataflow := { dataflow with maxDepth := moved.getD dataflow.maxDepth } } }

/-- Commits an instruction. -/
def commit (engine : Engine) (uid : Uid) (opcode : Opcode) (opClass : OpClass) : Engine :=
  let graph := engine.graph.commit uid opcode opClass
  { engine with
    graph
    summary := { engine.summary with
      dataflow :=
        { engine.summary.dataflow.countCommit (graph.depths.depth uid) with
          maxDepth := graph.depths.maxDepth } } }

/-- Analyses the critical path of what was recorded so far. -/
def analyse (engine : Engine) : Engine :=
  let path := CriticalPath.ofGraph engine.graph
  { engine with
    path := some path
    summary := { engine.summary with dataflow := engine.summary.dataflow.applyPath path } }

/-- Starts a cycle. -/
def startCycle (engine : Engine) : Engine :=
  { engine with window := engine.window.map CycleWindow.start }

/-- Fills in the sample of the cycle under way, if cycles are sampled. -/
def setSample (engine : Engine) (sample : CycleSample) : Engine :=
  { engine with window := engine.window.map (·.setCurrent sample) }

/-- Ends a cycle. The memory windows close whether or not cycles are sampled. -/
def endCycle (engine : Engine) (cycle : UInt64) : Engine :=
  { engine with
    window := engine.window.map (·.finish cycle)
    summary := { engine.summary with memory := engine.summary.memory.endCycle } }

/-- Takes the summary of the cycle window, if cycles are sampled. -/
def summarizeCycles (engine : Engine) : Engine :=
  { engine with
    summary := { engine.summary with cycles := engine.window.map CycleWindow.summarize } }

/-- Sets the name in the summary. -/
def setName (engine : Engine) (name : String) : Engine :=
  { engine with summary := { engine.summary with acceleratorName := name } }

/-- Hands over times and cycles. -/
def setPerformance (engine : Engine) (performance : Performance) : Engine :=
  { engine with summary := { engine.summary with performance } }

/-- Changes the dataflow of the summary. -/
def modifyDataflow (engine : Engine) (change : Dataflow → Dataflow) : Engine :=
  { engine with
    summary := { engine.summary with dataflow := change engine.summary.dataflow } }

/-- Changes the memory traffic of the summary. -/
def modifyMemory (engine : Engine) (change : MemoryTraffic → MemoryTraffic) : Engine :=
  { engine with summary := { engine.summary with memory := change engine.summary.memory } }

/-- Changes the functional units of the summary. -/
def modifyUnits (engine : Engine) (change : FuUsage → FuUsage) : Engine :=
  { engine with summary := { engine.summary with units := change engine.summary.units } }

/-- Changes the stalls of the summary. -/
def modifyStalls (engine : Engine) (change : StallBreakdown → StallBreakdown) : Engine :=
  { engine with summary := { engine.summary with stalls := change engine.summary.stalls } }

/-- Accounts for an event. -/
def apply (engine : Engine) : Event → Engine
  | .dependency edge => engine.recordDependency edge
  | .commit uid opcode isLoad isStore =>
    engine.commit uid opcode (OpClass.ofFlags isLoad isStore)
  | .stall cause => engine.modifyStalls (·.record cause)
  | .noStall => engine.modifyStalls (·.recordProgress)
  | .parallelism ready issued =>
    engine.modifyDataflow (·.recordParallelism ready.toNat issued.toNat)
  | .cycleStart => engine.startCycle
  | .cycleEnd cycle sample => (sample.elim engine engine.setSample).endCycle cycle
  | .memoryRead access => engine.modifyMemory (·.recordRead access)
  | .memoryWrite access => engine.modifyMemory (·.recordWrite access)
  | .portContention isRead => engine.modifyMemory (·.recordPortStall isRead)
  | .busWidths read write => engine.modifyMemory (·.setBusWidths read.toNat write.toNat)
  | .fuBusy fu start stop => engine.modifyUnits (·.recordBusy fu start.toNat stop.toNat)
  | .fuContention fu => engine.modifyUnits (·.recordContention fu)
  | .fuInstances fu count => engine.modifyUnits (·.setInstances fu count.toNat)
  | .power inputs =>
    { engine with summary := { engine.summary with power := Power.collect inputs } }
  | .area inputs =>
    { engine with summary := { engine.summary with area := Area.collect inputs } }

/-- The text of the document in the form that was asked for. -/
def documentText (engine : Engine) : String :=
  engine.summary.documentText engine.config.prettyPrint

/-- The document as a file, if a path was asked for. -/
def documentFile? (engine : Engine) : Option OutputFile :=
  engine.config.outputFile.map fun path =>
    engine.summary.documentFile path engine.config.prettyPrint

/-- The table as a file, if a path was asked for. -/
def tableFile? (engine : Engine) : Option OutputFile :=
  engine.config.outputFile.map engine.summary.tableFile

/-- What the engine prints: the document and the table, each if its switch is set. -/
def consoleText (engine : Engine) : String :=
  (if engine.config.debugFlags.detailed then engine.summary.detailedText else "") ++
    (if engine.config.debugFlags.csv then engine.summary.tableText else "")

/-- The files that the engine writes, in the order in which they are written: the table if
    its switch is set, and the document. -/
def outputFiles (engine : Engine) : List OutputFile :=
  (if engine.config.debugFlags.csv then engine.tableFile?.toList else []) ++
    engine.documentFile?.toList

end Engine

end AccelProfile
