import AccelProfile.CriticalPath
/-!
# Dataflow

What a run shows of its dataflow: its dependencies by kind, the depths of its committed
instructions, how many instructions were ready and issued in the sampled cycles, and the
result of the last analysis of the critical path.
-/

namespace AccelProfile

/-- The dataflow statistics of a run. -/
structure Dataflow where
  pathLength : Nat
  pathInstructions : Nat
  pathLoads : Nat
  pathStores : Nat
  pathComputes : Nat
  pathByOpcode : Histogram
  instructions : Nat
  edges : Nat
  trueEdges : Nat
  /-- The dependencies in which the consumer overwrites what the producer read. -/
  antiEdges : Nat
  /-- The dependencies in which the consumer overwrites what the producer wrote. -/
  outputEdges : Nat
  controlEdges : Nat
  memoryEdges : Nat
  /-- The running mean of the depths at which instructions committed. -/
  avgDepth : Float
  maxDepth : Nat
  /-- Instructions per level at the last analysis. -/
  avgReady : Float
  /-- The most ready instructions in a sampled cycle. -/
  maxReady : Nat
  /-- The instructions issued in the sampled cycles. -/
  issued : Nat
  sampledCycles : Nat
  /-- In how many cycles each number of instructions was ready. -/
  readyHistogram : Histogram
  deriving Inhabited

namespace Dataflow

/-- The statistics of a run in which nothing happened yet. -/
def empty : Dataflow :=
  { pathLength := 0, pathInstructions := 0, pathLoads := 0, pathStores := 0, pathComputes := 0
    pathByOpcode := .empty, instructions := 0, edges := 0, trueEdges := 0, antiEdges := 0
    outputEdges := 0, controlEdges := 0, memoryEdges := 0, avgDepth := 0, maxDepth := 0
    avgReady := 0, maxReady := 0, issued := 0, sampledCycles := 0, readyHistogram := .empty }

/-- Counts a dependency under each of its kinds. -/
def countEdge (dataflow : Dataflow) (kinds : DepKinds) : Dataflow :=
  { dataflow with
    edges := dataflow.edges + 1
    trueEdges := dataflow.trueEdges + kinds.raw.toNat
    antiEdges := dataflow.antiEdges + kinds.war.toNat
    outputEdges := dataflow.outputEdges + kinds.waw.toNat
    controlEdges := dataflow.controlEdges + kinds.control.toNat
    memoryEdges := dataflow.memoryEdges + kinds.memory.toNat }

/-- Counts a committed instruction and moves the mean of the depths towards its depth. -/
def countCommit (dataflow : Dataflow) (depth : Nat) : Dataflow :=
  let instructions := dataflow.instructions + 1
  { dataflow with
    instructions
    avgDepth :=
      dataflow.avgDepth + (depth.toFloat - dataflow.avgDepth) / instructions.toFloat }

/-- Counts a sampled cycle. -/
def recordParallelism (dataflow : Dataflow) (ready issued : Nat) : Dataflow :=
  { dataflow with
    readyHistogram := dataflow.readyHistogram.add ready
    maxReady := max dataflow.maxReady ready
    issued := satAdd dataflow.issued issued
    sampledCycles := dataflow.sampledCycles + 1 }

/-- Takes over the result of an analysis. An analysis of an empty run leaves the
    instructions per level as they were. -/
def applyPath (dataflow : Dataflow) (path : CriticalPath) : Dataflow :=
  { dataflow with
    pathLength := path.length
    avgReady := path.avgReady.getD dataflow.avgReady
    pathInstructions := path.instructionCount
    pathLoads := path.loads
    pathStores := path.stores
    pathComputes := path.computes
    pathByOpcode := path.byOpcode }

/-- The ready instructions of all sampled cycles and the number of these cycles, summed
    over the histogram. -/
def readySums (dataflow : Dataflow) : Nat × Nat :=
  dataflow.readyHistogram.entries.foldl
    (fun (ready, cycles) (key, count) => (satAdd ready (satMul key count), satAdd cycles count))
    (0, 0)

/-- The mean number of ready instructions in a sampled cycle. -/
def avgParallelism (dataflow : Dataflow) : Float :=
  let (ready, cycles) := dataflow.readySums
  ratio ready cycles

/-- The mean number of issued instructions in a sampled cycle. -/
def avgIssued (dataflow : Dataflow) : Float :=
  ratio dataflow.issued dataflow.sampledCycles

/-- Committed instructions per level of the critical path. -/
def ilp (dataflow : Dataflow) : Float :=
  ratio dataflow.instructions dataflow.pathLength

/-- The statistics as an object. -/
def toJson (dataflow : Dataflow) : Json :=
  .obj [("critical_path_length", .ofNat dataflow.pathLength),
    ("critical_path_instructions", .ofNat dataflow.pathInstructions),
    ("critical_path_loads", .ofNat dataflow.pathLoads),
    ("critical_path_stores", .ofNat dataflow.pathStores),
    ("critical_path_computes", .ofNat dataflow.pathComputes),
    ("critical_path_by_opcode", dataflow.pathByOpcode.toJson),
    ("total_instructions", .ofNat dataflow.instructions),
    ("total_dependency_edges", .ofNat dataflow.edges),
    ("true_dependencies", .ofNat dataflow.trueEdges),
    ("anti_dependencies", .ofNat dataflow.antiEdges),
    ("output_dependencies", .ofNat dataflow.outputEdges),
    ("control_dependencies", .ofNat dataflow.controlEdges),
    ("memory_dependencies", .ofNat dataflow.memoryEdges),
    ("avg_dependency_depth", .ofFloat dataflow.avgDepth),
    ("max_dependency_depth", .ofNat dataflow.maxDepth),
    ("avg_ready_instructions", .ofFloat dataflow.avgReady),
    ("max_parallel_ops", .ofNat dataflow.maxReady),
    ("total_issued", .ofNat dataflow.issued),
    ("sampled_cycles", .ofNat dataflow.sampledCycles),
    ("parallelism_histogram", dataflow.readyHistogram.toJson)]

end Dataflow

end AccelProfile
