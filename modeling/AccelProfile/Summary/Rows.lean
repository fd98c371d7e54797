import AccelProfile.Metric
import AccelProfile.Summary.Basic
/-!
# The rows of a report

A summary laid out as one list of rows. Each row has a metric, the section it belongs to,
its key inside the section, and the name that tells it from all other rows. Every document
of a report is made from this list, so all of them have the same metrics in the same
order.

Keys repeat between sections where the same thing is said of different parts; names do
not, because a section with such keys puts a prefix of its own in front of them.
-/

namespace AccelProfile

/-- A section of a report. -/
inductive Section
  /-- What the report is about. -/
  | identity
  | performance
  /-- Memory requests. -/
  | memoryAccess
  /-- Bytes moved. -/
  | bandwidth
  | dataflow
  | pathByOpcode
  | units
  | power
  | area
  | stalls
  /-- The window of cycle samples. -/
  | cycles
  deriving DecidableEq, Repr

namespace Section

/-- The key of a section in a document; the identity of a report stands at its top. -/
def key? : Section → Option String
  | .identity => none
  | .performance => some "performance"
  | .memoryAccess => some "memory_access"
  | .bandwidth => some "bandwidth"
  | .dataflow => some "dataflow"
  | .pathByOpcode => some "critical_path_by_opcode"
  | .units => some "fu_utilization"
  | .power => some "power"
  | .area => some "area"
  | .stalls => some "stall_breakdown"
  | .cycles => some "cycle_summary"

end Section

/-- One metric of a report. -/
structure Row where
  /-- The section it belongs to. -/
  group : Section
  /-- Its key inside the section. -/
  key : String
  /-- Its name among all rows. -/
  name : String
  value : Metric
  deriving DecidableEq

namespace Row

/-- A row whose name is its key. -/
def plain (group : Section) (key : String) (value : Metric) : Row :=
  ⟨group, key, key, value⟩

/-- A row whose name is its key behind the prefix of its section. -/
def underPrefix (start : String) (group : Section) (key : String) (value : Metric) : Row :=
  ⟨group, key, start ++ key, value⟩

end Row

namespace Performance

/-- The rows of the section. -/
def rows (performance : Performance) : List Row :=
  let row := Row.plain .performance
  [row "setup_time_ns" (.float performance.setupTime),
    row "sim_time_ns" (.float performance.simTime),
    row "total_time_ns" (.float performance.totalTime),
    row "clock_period_ns" (.int performance.clockPeriod),
    row "sys_clock_ghz" (.float performance.clockFrequency),
    row "total_cycles" (.int performance.totalCycles),
    row "stall_cycles" (.int performance.stallCycles),
    row "active_cycles" (.int performance.activeCycles),
    row "executed_nodes" (.int performance.executedNodes),
    row "ipc" (.float performance.ipc)]

end Performance

namespace MemoryTraffic

/-- The rows of the requests. -/
def rows (traffic : MemoryTraffic) : List Row :=
  let row := Row.plain .memoryAccess
  [row "cache_hits" (.int traffic.cacheHits),
    row "cache_misses" (.int traffic.cacheMisses),
    row "cache_hit_rate" (.float traffic.cacheHitRate),
    row "spm_reads" (.int traffic.reads.spm),
    row "spm_writes" (.int traffic.writes.spm),
    row "dma_read_requests" (.int traffic.reads.dma),
    row "dma_write_requests" (.int traffic.writes.dma),
    row "local_reads" (.int traffic.reads.localMemory),
    row "local_writes" (.int traffic.writes.localMemory),
    row "avg_read_latency" (.float traffic.reads.avgLatency),
    row "avg_write_latency" (.float traffic.writes.avgLatency),
    row "min_read_latency" (.int (traffic.reads.minLatency.getD 0)),
    row "max_read_latency" (.int traffic.reads.maxLatency),
    row "min_write_latency" (.int (traffic.writes.minLatency.getD 0)),
    row "max_write_latency" (.int traffic.writes.maxLatency),
    row "read_port_stalls" (.int traffic.reads.portStalls),
    row "write_port_stalls" (.int traffic.writes.portStalls)]

/-- The rows of the bytes moved in so many cycles. -/
def bandwidthRows (traffic : MemoryTraffic) (totalCycles : Nat) : List Row :=
  let row := Row.plain .bandwidth
  [row "total_bytes_read" (.int traffic.reads.totalBytes),
    row "total_bytes_written" (.int traffic.writes.totalBytes),
    row "peak_read_bytes_per_cycle" (.int traffic.reads.peakBytesPerCycle),
    row "peak_write_bytes_per_cycle" (.int traffic.writes.peakBytesPerCycle),
    row "read_bus_width" (.int traffic.reads.busWidth),
    row "write_bus_width" (.int traffic.writes.busWidth),
    row "read_bandwidth_utilization" (.float (traffic.reads.bandwidthUtilization totalCycles)),
    row "write_bandwidth_utilization" (.float (traffic.writes.bandwidthUtilization totalCycles)),
    row "read_lines_touched" (.int traffic.reads.lines.size),
    row "write_lines_touched" (.int traffic.writes.lines.size)]

end MemoryTraffic

namespace Dataflow

/-- The rows of the section. -/
def rows (dataflow : Dataflow) : List Row :=
  let row := Row.plain .dataflow
  [row "critical_path_length" (.int dataflow.pathLength),
    row "critical_path_instructions" (.int dataflow.pathInstructions),
    row "critical_path_loads" (.int dataflow.pathLoads),
    row "critical_path_stores" (.int dataflow.pathStores),
    row "critical_path_computes" (.int dataflow.pathComputes),
    row "total_instructions" (.int dataflow.instructions),
    row "total_dependency_edges" (.int dataflow.edges),
    row "true_dependencies" (.int dataflow.trueEdges),
    row "anti_dependencies" (.int dataflow.antiEdges),
    row "output_dependencies" (.int dataflow.outputEdges),
    row "control_dependencies" (.int dataflow.controlEdges),
    row "memory_dependencies" (.int dataflow.memoryEdges),
    row "avg_dependency_depth" (.float dataflow.avgDepth),
    row "max_dependency_depth" (.int dataflow.maxDepth),
    row "avg_ready_instructions" (.float dataflow.avgReady),
    row "ilp" (.float dataflow.ilp),
    row "avg_parallelism" (.float dataflow.avgParallelism),
    row "avg_issued_per_cycle" (.float dataflow.avgIssued),
    row "max_parallel_ops" (.int dataflow.maxReady)]

/-- The rows of the instructions on the critical path by opcode. -/
def opcodeRows (dataflow : Dataflow) : List Row :=
  dataflow.pathByOpcode.entries.map fun (opcode, count) =>
    .underPrefix "critical_path_opcode_" .pathByOpcode (toString opcode) (.int count)

end Dataflow

/-- The seven rows of a class of functional units over so many cycles. -/
def FuCounters.rows (counters : FuCounters) (fu : FuClass) (totalCycles : Nat) : List Row :=
  let row (field : String) := Row.underPrefix "fu_" .units (fu.name ++ "_" ++ field)
  [row "instances" (.int counters.instances),
    row "max_concurrent" (.int counters.maxConcurrent),
    row "busy_cycles" (.int counters.busyCycles),
    row "operations" (.int counters.operations),
    row "contention_stalls" (.int counters.contentionStalls),
    row "utilization" (.float (counters.utilization totalCycles)),
    row "contention_rate" (.float counters.contentionRate)]

/-- The rows of the section: the sums, then the classes that anything was heard of. -/
def FuUsage.rows (usage : FuUsage) (totalCycles : Nat) : List Row :=
  let row := Row.underPrefix "fu_" .units
  [row "total_busy_cycles" (.int usage.totalBusyCycles),
    row "total_contention_stalls" (.int usage.totalContentionStalls),
    row "total_instances" (.int usage.totalInstances),
    row "overall_utilization" (.float (usage.overallUtilization totalCycles)),
    row "most_contended" (.text (usage.mostContended.elim "none" FuClass.name))] ++
  (usage.toList.filter fun (_, counters) => counters.isActive).flatMap fun (fu, counters) =>
    counters.rows fu totalCycles

/-- The rows of the section: power first, then the energy over a run time. -/
def Power.rows (power : Power) (runtime : Float) : List Row :=
  let row := Row.plain .power
  let inputs := power.inputs
  let energy := power.energy runtime
  [row "fu_leakage" (.float inputs.fuLeakage),
    row "fu_dynamic" (.float inputs.fuDynamic),
    row "fu_total" (.float power.fu),
    row "reg_leakage" (.float inputs.regLeakage),
    row "reg_dynamic" (.float inputs.regDynamic),
    row "reg_total" (.float power.reg),
    row "spm_leakage" (.float inputs.spmLeakage),
    row "spm_read_dynamic" (.float inputs.spmReadDynamic),
    row "spm_write_dynamic" (.float inputs.spmWriteDynamic),
    row "spm_total" (.float power.spm),
    row "cache_leakage" (.float inputs.cacheLeakage),
    row "cache_read_dynamic" (.float inputs.cacheReadDynamic),
    row "cache_write_dynamic" (.float inputs.cacheWriteDynamic),
    row "cache_total" (.float power.cache),
    row "mem_leakage" (.float power.memoryLeakage),
    row "mem_dynamic" (.float power.memoryDynamic),
    row "mem_total" (.float power.memoryTotal),
    row "total_power" (.float power.total),
    row "acc_spm_total" (.float power.withSpm),
    row "acc_cache_total" (.float power.withCache),
    row "fu_energy_nj" (.float energy.fu),
    row "reg_energy_nj" (.float energy.reg),
    row "mem_energy_nj" (.float energy.memory),
    row "total_energy_nj" (.float energy.total)]

/-- The rows of the section. -/
def Area.rows (area : Area) : List Row :=
  let row := Row.plain .area
  [row "fu_area_um2" (.float area.inputs.fu),
    row "reg_area_um2" (.float area.inputs.reg),
    row "spm_area_um2" (.float area.inputs.spm),
    row "cache_area_um2" (.float area.inputs.cache),
    row "mem_area_um2" (.float area.memory),
    row "total_area_um2" (.float area.total),
    row "acc_spm_area_um2" (.float area.withSpm),
    row "acc_cache_area_um2" (.float area.withCache),
    row "total_area_mm2" (.float area.totalMillimetres)]

/-- The rows of the section: the causes, then the streaks. -/
def StallBreakdown.rows (stalls : StallBreakdown) : List Row :=
  (stalls.counts.map fun (cause, count) =>
    .underPrefix "stall_" .stalls cause.name (.int count)) ++
  let row := Row.plain .stalls
  [row "total_stall_cycles" (.int stalls.totalCycles),
    row "max_consecutive_stalls" (.int stalls.longestStreak),
    row "stall_events" (.int stalls.streaks),
    row "avg_stall_duration" (.float stalls.avgDuration),
    row "dominant_bottleneck" (.text (stalls.dominantCause.elim "none" StallCause.name))]

/-- The rows of the section. -/
def CycleSummary.rows (cycles : CycleSummary) : List Row :=
  let row := Row.underPrefix "cycle_" .cycles
  [row "samples" (.int cycles.samples),
    row "evicted" (.int cycles.evicted),
    row "avg_res_in_flight" (.float cycles.avgReservation),
    row "avg_load_in_flight" (.float cycles.avgLoad),
    row "avg_store_in_flight" (.float cycles.avgStore),
    row "avg_comp_in_flight" (.float cycles.avgCompute),
    row "peak_res_in_flight" (.int cycles.peakReservation),
    row "peak_load_in_flight" (.int cycles.peakLoad),
    row "peak_store_in_flight" (.int cycles.peakStore),
    row "peak_comp_in_flight" (.int cycles.peakCompute),
    row "total_load_raw_stalls" (.int cycles.loadRawStalls),
    row "total_comp_fu_stalls" (.int cycles.computeFuStalls)]

/-- All rows of a summary in the order of a report. -/
def Summary.rows (summary : Summary) : List Row :=
  let totalCycles := summary.performance.totalCycles
  [.plain .identity "accelerator_name" (.text summary.acceleratorName)] ++
    summary.performance.rows ++
    summary.memory.rows ++
    summary.memory.bandwidthRows totalCycles ++
    summary.dataflow.rows ++
    summary.dataflow.opcodeRows ++
    summary.units.rows totalCycles ++
    summary.power.rows summary.performance.runtime ++
    summary.area.rows ++
    summary.stalls.rows ++
    summary.cycles.elim [] CycleSummary.rows

end AccelProfile
