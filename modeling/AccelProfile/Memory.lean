import AccelProfile.Json.Decoder
import AccelProfile.SortedTable
/-!
# Memory traffic

Completed memory requests, reads and writes apart. Each of the two directions counts its
requests by the memory they went to, sums their latencies and bytes, counts how often each
line of memory was touched, and keeps the largest number of bytes moved in one cycle. The
bytes of a cycle are summed in a window that the end of the cycle closes.
-/

namespace AccelProfile

/-- The memory that a request goes to. -/
inductive MemoryKind
  | cache
  /-- The scratchpad. -/
  | spm
  /-- Memory behind a direct memory access engine. -/
  | dma
  | localMemory
  deriving DecidableEq, Repr, Inhabited

namespace MemoryKind

/-- All memories. -/
def all : List MemoryKind :=
  [.cache, .spm, .dma, .localMemory]

/-- The name of a memory. -/
def name : MemoryKind → String
  | .cache => "cache"
  | .spm => "spm"
  | .dma => "dma"
  | .localMemory => "local"

/-- A memory is its name. -/
def toJson (kind : MemoryKind) : Json :=
  .str kind.name

/-- Reads a memory. -/
def decoder : Decoder MemoryKind :=
  Decoder.choice all name

end MemoryKind

/-- One completed request. -/
structure MemoryAccess where
  kind : MemoryKind
  /-- Its first address, if known. -/
  addr : Option UInt64
  bytes : UInt64
  /-- The cycles it took. -/
  latency : UInt64
  /-- Whether the cache had the line; of no meaning for the other memories. -/
  cacheHit : Bool
  deriving DecidableEq, Repr, Inhabited

namespace MemoryAccess

/-- The members of a request. -/
def members (access : MemoryAccess) : List (String × Json) :=
  [("kind", access.kind.toJson), ("addr", .ofOption (fun addr => .ofNat addr.toNat) access.addr),
    ("bytes", .ofNat access.bytes.toNat), ("latency", .ofNat access.latency.toNat),
    ("cache_hit", .bool access.cacheHit)]

/-- A request as an object. -/
def toJson (access : MemoryAccess) : Json :=
  .obj access.members

/-- A request as a record that names at least its memory. -/
def fields : Fields MemoryAccess :=
  MemoryAccess.mk <$> .required "kind" MemoryKind.decoder
    <*> .optional "addr" (Decoder.optional Decoder.word) none
    <*> .optional "bytes" Decoder.word 0
    <*> .optional "latency" Decoder.word 0
    <*> .optional "cache_hit" Decoder.bool false

/-- Reads a request. -/
def decoder : Decoder MemoryAccess :=
  fields.decoder

end MemoryAccess

/-- The bytes of one line of memory. -/
def lineBytes : Nat := 64

/-- The first address of the line that an address lies in. -/
def lineOf (addr : UInt64) : Nat :=
  addr.toNat / lineBytes * lineBytes

/-- The requests of one direction. -/
structure Channel where
  count : Nat
  cacheHits : Nat
  cacheMisses : Nat
  spm : Nat
  dma : Nat
  localMemory : Nat
  totalLatency : Nat
  /-- The smallest latency; absent before the first request. -/
  minLatency : Option Nat
  maxLatency : Nat
  /-- Requests that found all ports busy. -/
  portStalls : Nat
  totalBytes : Nat
  peakBytesPerCycle : Nat
  /-- The bytes that the bus can move in one cycle; zero if unknown. -/
  busWidth : Nat
  /-- How often each line was touched. -/
  lines : Histogram
  /-- The bytes moved in the cycle that is under way. -/
  cycleBytes : Nat
  deriving Inhabited

namespace Channel

/-- A direction without requests. -/
def empty : Channel :=
  ⟨0, 0, 0, 0, 0, 0, 0, none, 0, 0, 0, 0, 0, .empty, 0⟩

/-- Counts a request at the memory it went to. -/
def countKind (channel : Channel) (access : MemoryAccess) : Channel :=
  match access.kind with
  | .cache =>
    if access.cacheHit then { channel with cacheHits := channel.cacheHits + 1 }
    else { channel with cacheMisses := channel.cacheMisses + 1 }
  | .spm => { channel with spm := channel.spm + 1 }
  | .dma => { channel with dma := channel.dma + 1 }
  | .localMemory => { channel with localMemory := channel.localMemory + 1 }

/-- Counts a completed request. -/
def record (channel : Channel) (access : MemoryAccess) : Channel :=
  let latency := access.latency.toNat
  let cycleBytes := satAdd channel.cycleBytes access.bytes.toNat
  { channel.countKind access with
    count := channel.count + 1
    totalLatency := satAdd channel.totalLatency latency
    minLatency := some (channel.minLatency.elim latency (min · latency))
    maxLatency := max channel.maxLatency latency
    totalBytes := satAdd channel.totalBytes access.bytes.toNat
    cycleBytes
    peakBytesPerCycle := max channel.peakBytesPerCycle cycleBytes
    lines := access.addr.elim channel.lines fun addr => channel.lines.add (lineOf addr) }

/-- Counts a request that found all ports busy. -/
def recordPortStall (channel : Channel) : Channel :=
  { channel with portStalls := channel.portStalls + 1 }

/-- Closes the window of the cycle that is under way. -/
def endCycle (channel : Channel) : Channel :=
  { channel with cycleBytes := 0 }

/-- The mean latency. -/
def avgLatency (channel : Channel) : Float :=
  ratio channel.totalLatency channel.count

/-- Bytes moved over the bytes that the bus could have moved. -/
def bandwidthUtilization (channel : Channel) (totalCycles : Nat) : Float :=
  ratio channel.totalBytes (satMul totalCycles channel.busWidth)

end Channel

/-- The memory requests of a run. The requests to the cache are counted a second time, for both
directions together. -/
structure MemoryTraffic where
  reads : Channel
  writes : Channel
  /-- The requests that the cache had the line for. -/
  cacheHits : Nat
  /-- The requests that the cache did not have the line for. -/
  cacheMisses : Nat
  deriving Inhabited

namespace MemoryTraffic

/-- A run without requests. -/
def empty : MemoryTraffic :=
  ⟨.empty, .empty, 0, 0⟩

/-- Counts a request of either direction if it went to the cache. -/
def countCache (traffic : MemoryTraffic) (access : MemoryAccess) : MemoryTraffic :=
  match access.kind with
  | .cache =>
    if access.cacheHit then { traffic with cacheHits := traffic.cacheHits + 1 }
    else { traffic with cacheMisses := traffic.cacheMisses + 1 }
  | .spm | .dma | .localMemory => traffic

@[simp]
theorem countCache_reads (traffic : MemoryTraffic) (access : MemoryAccess) :
    (traffic.countCache access).reads = traffic.reads := by
  obtain ⟨kind, addr, bytes, latency, cacheHit⟩ := access
  cases kind <;> cases cacheHit <;> rfl

@[simp]
theorem countCache_writes (traffic : MemoryTraffic) (access : MemoryAccess) :
    (traffic.countCache access).writes = traffic.writes := by
  obtain ⟨kind, addr, bytes, latency, cacheHit⟩ := access
  cases kind <;> cases cacheHit <;> rfl

/-- Counts a completed read. -/
def recordRead (traffic : MemoryTraffic) (access : MemoryAccess) : MemoryTraffic :=
  { traffic.countCache access with reads := traffic.reads.record access }

/-- Counts a completed write. -/
def recordWrite (traffic : MemoryTraffic) (access : MemoryAccess) : MemoryTraffic :=
  { traffic.countCache access with writes := traffic.writes.record access }

/-- Counts a read or a write that found all ports busy. -/
def recordPortStall (traffic : MemoryTraffic) (isRead : Bool) : MemoryTraffic :=
  if isRead then { traffic with reads := traffic.reads.recordPortStall }
  else { traffic with writes := traffic.writes.recordPortStall }

/-- Sets the widths of the two buses. -/
def setBusWidths (traffic : MemoryTraffic) (read write : Nat) : MemoryTraffic :=
  { traffic with
    reads := { traffic.reads with busWidth := read }
    writes := { traffic.writes with busWidth := write } }

/-- Closes the window of the cycle that is under way. -/
def endCycle (traffic : MemoryTraffic) : MemoryTraffic :=
  { traffic with reads := traffic.reads.endCycle, writes := traffic.writes.endCycle }

/-- The share of the requests to the cache that it had the line for. -/
def cacheHitRate (traffic : MemoryTraffic) : Float :=
  ratio traffic.cacheHits (traffic.cacheHits + traffic.cacheMisses)

/-- The traffic as an object. The windows under way are not part of it. -/
def toJson (traffic : MemoryTraffic) : Json :=
  let reads := traffic.reads
  let writes := traffic.writes
  .obj [("cache_hits", .ofNat traffic.cacheHits), ("cache_misses", .ofNat traffic.cacheMisses),
    ("cache_read_hits", .ofNat reads.cacheHits), ("cache_read_misses", .ofNat reads.cacheMisses),
    ("cache_write_hits", .ofNat writes.cacheHits),
    ("cache_write_misses", .ofNat writes.cacheMisses),
    ("spm_reads", .ofNat reads.spm), ("spm_writes", .ofNat writes.spm),
    ("dma_read_requests", .ofNat reads.dma), ("dma_write_requests", .ofNat writes.dma),
    ("local_reads", .ofNat reads.localMemory), ("local_writes", .ofNat writes.localMemory),
    ("read_count", .ofNat reads.count), ("write_count", .ofNat writes.count),
    ("total_read_latency", .ofNat reads.totalLatency),
    ("total_write_latency", .ofNat writes.totalLatency),
    ("min_read_latency", .ofOption .ofNat reads.minLatency),
    ("max_read_latency", .ofNat reads.maxLatency),
    ("min_write_latency", .ofOption .ofNat writes.minLatency),
    ("max_write_latency", .ofNat writes.maxLatency),
    ("read_port_stalls", .ofNat reads.portStalls), ("write_port_stalls", .ofNat writes.portStalls),
    ("total_bytes_read", .ofNat reads.totalBytes),
    ("total_bytes_written", .ofNat writes.totalBytes),
    ("peak_read_bytes_per_cycle", .ofNat reads.peakBytesPerCycle),
    ("peak_write_bytes_per_cycle", .ofNat writes.peakBytesPerCycle),
    ("read_bus_width", .ofNat reads.busWidth), ("write_bus_width", .ofNat writes.busWidth),
    ("read_lines", reads.lines.toJson), ("write_lines", writes.lines.toJson)]

end MemoryTraffic

end AccelProfile
