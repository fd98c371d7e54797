import Mathlib.Order.Bounds.Basic
import AccelProfile.Proofs.HistogramCounts
import AccelProfile.Proofs.TrafficPeaks

/-!
# Counts of memory requests

A channel counts each request twice: as a request, and by the way in which it was served. The cache
had its line or did not have it, or it went to one of the other memories. So the counts of the ways
add up to the count of the requests. Of the latencies the smallest and the largest are kept, and of
each line of memory the number of requests that start in it. The hits and misses of the cache are
counted once more outside of the channels, and come to those of both channels.

Other calls than requests do not move these counts, and the requests move them in the same way in
whatever order they come. Two runs with the same requests of each direction end with the same
counts.
-/

namespace AccelProfile

/-- The way in which a request was served. -/
inductive Service
  /-- The cache had the line. -/
  | hit
  /-- The cache did not have the line. -/
  | miss
  | spm
  | dma
  | localMemory
  deriving DecidableEq

namespace MemoryAccess

/-- The way in which a request was served. Only a request to the cache can be a hit or a miss. -/
def service (access : MemoryAccess) : Service :=
  match access.kind with
  | .cache => if access.cacheHit then .hit else .miss
  | .spm => .spm
  | .dma => .dma
  | .localMemory => .localMemory

/-- The line that a request starts in, if its address is known. -/
def line? (access : MemoryAccess) : Option Nat :=
  access.addr.map lineOf

/-- Whether a request is known to start in the bytes of a line from an address on. -/
def startsIn (key : Nat) (access : MemoryAccess) : Bool :=
  access.addr.any fun addr => key ≤ addr.toNat ∧ addr.toNat < key + lineBytes

/-- The lines are the multiples of their size, and a request is in the one whose bytes it starts
in. -/
theorem line?_eq_some_iff (access : MemoryAccess) (key : Nat) :
    access.line? = some key ↔ lineBytes ∣ key ∧ access.startsIn key = true := by
  cases known : access.addr with
  | none => simp [line?, startsIn, known]
  | some addr =>
    simp only [line?, startsIn, known, Option.map_some, Option.some_inj, Option.any_some,
      decide_eq_true_eq, lineOf]
    simp only [lineBytes]
    omega

/-- Every request was served in one way. -/
theorem length_eq_services (accesses : List MemoryAccess) :
    accesses.length =
      accesses.countP (·.service = .hit) + accesses.countP (·.service = .miss) +
        accesses.countP (·.service = .spm) + accesses.countP (·.service = .dma) +
        accesses.countP (·.service = .localMemory) := by
  induction accesses with
  | nil => rfl
  | cons access accesses ih =>
    simp only [List.length_cons, List.countP_cons, ih]
    cases access.service <;> simp <;> omega

end MemoryAccess

namespace Channel

/-- The counter of the requests that were served in some way. -/
def served (channel : Channel) : Service → Nat
  | .hit => channel.cacheHits
  | .miss => channel.cacheMisses
  | .spm => channel.spm
  | .dma => channel.dma
  | .localMemory => channel.localMemory

/-- A request counts for the way in which it was served and for no other. -/
theorem served_record (channel : Channel) (access : MemoryAccess) (service : Service) :
    (channel.record access).served service =
      channel.served service + if access.service = service then 1 else 0 := by
  obtain ⟨kind, addr, bytes, latency, cacheHit⟩ := access
  cases kind <;> cases cacheHit <;> cases service <;> rfl

/-- The request that a call completes. -/
def Call.request? : Call → Option MemoryAccess
  | .request access => some access
  | .portStall | .busWidth _ | .endCycle => none

/-- The requests that calls complete. -/
def requests (calls : List Call) : List MemoryAccess :=
  calls.filterMap Call.request?

theorem requests_concat (calls : List Call) (call : Call) :
    requests (calls ++ [call]) = requests calls ++ call.request?.toList := by
  cases request : call.request? <;> simp [requests, request]

/-- The latencies of some requests. -/
def latencies (accesses : List MemoryAccess) : Set Nat :=
  {latency | ∃ access ∈ accesses, access.latency.toNat = latency}

theorem latencies_nil : latencies [] = ∅ := by
  simp [latencies]

theorem latencies_concat (accesses : List MemoryAccess) (access : MemoryAccess) :
    latencies (accesses ++ [access]) = insert access.latency.toNat (latencies accesses) := by
  ext latency
  simp only [latencies, List.mem_append, List.mem_singleton, or_and_right, exists_or,
    exists_eq_left, Set.mem_ofPred_eq, Set.mem_insert_iff]
  rw [or_comm, eq_comm]

/-- The counters of a channel are those of its requests. -/
structure AccountsFor (channel : Channel) (accesses : List MemoryAccess) : Prop where
  count : channel.count = accesses.length
  served : ∀ service, channel.served service = accesses.countP (·.service = service)
  /-- There is no smallest latency as long as there is no request. -/
  noLeast_iff : channel.minLatency = none ↔ accesses = []
  least : ∀ latency, channel.minLatency = some latency → IsLeast (latencies accesses) latency
  greatest : accesses ≠ [] → IsGreatest (latencies accesses) channel.maxLatency
  idle : accesses = [] → channel.maxLatency = 0
  lines : channel.lines = .ofList (accesses.filterMap MemoryAccess.line?)

namespace AccountsFor

variable {channel : Channel} {accesses : List MemoryAccess}

theorem empty : AccountsFor .empty [] where
  count := rfl
  served service := by cases service <;> rfl
  noLeast_iff := by simp [Channel.empty]
  least _ known := by simp [Channel.empty] at known
  greatest used := absurd rfl used
  idle _ := rfl
  lines := rfl

/-- One more request counts once for its service and once for its line, and its latency can take the
place of the smallest or the largest one. -/
theorem request (accounts : channel.AccountsFor accesses) (access : MemoryAccess) :
    (channel.record access).AccountsFor (accesses ++ [access]) where
  count := by
    rw [List.length_append, List.length_singleton, ← accounts.count]
    rfl
  served service := by
    rw [served_record, accounts.served, List.countP_append, List.countP_singleton]
    simp
  noLeast_iff := by simp [record]
  least latency known := by
    obtain rfl := Option.some.inj known
    rw [latencies_concat]
    cases before : channel.minLatency with
    | none =>
      rw [accounts.noLeast_iff.1 before, latencies_nil, insert_empty_eq]
      exact isLeast_singleton
    | some least =>
      rw [Option.elim_some, Nat.min_comm]
      exact (accounts.least least before).insert _
  greatest _ := by
    rw [latencies_concat]
    change IsGreatest _ (max channel.maxLatency access.latency.toNat)
    by_cases first : accesses = []
    · rw [accounts.idle first, first, latencies_nil, insert_empty_eq, Nat.zero_max]
      exact isGreatest_singleton
    · rw [Nat.max_comm]
      exact (accounts.greatest first).insert _
  idle none := by simp at none
  lines := by
    cases line : access.addr with
    | none => simpa [record, MemoryAccess.line?, line] using accounts.lines
    | some addr =>
      have observed : (accesses ++ [access]).filterMap MemoryAccess.line? =
          accesses.filterMap MemoryAccess.line? ++ [lineOf addr] := by
        simp [MemoryAccess.line?, line]
      rw [observed, Histogram.ofList_concat, ← accounts.lines]
      simp [record, line]

/-- Other calls than requests leave the counters alone. -/
theorem other (accounts : channel.AccountsFor accesses) {call : Call}
    (nothing : call.request? = none) : (channel.receive call).AccountsFor accesses := by
  have served (service : Service) : (channel.receive call).served service =
      channel.served service := by
    cases call with
    | request => cases nothing
    | _ => cases service <;> rfl
  cases call with
  | request => cases nothing
  | _ =>
    exact { accounts with
      served := fun service => (served service).trans (accounts.served service) }

/-- Each way of being served has a counter, so these add up to the number of requests. -/
theorem count_eq (accounts : channel.AccountsFor accesses) :
    channel.count = channel.cacheHits + channel.cacheMisses + channel.spm + channel.dma +
      channel.localMemory := by
  rw [accounts.count, MemoryAccess.length_eq_services]
  simp only [← accounts.served]
  rfl

/-- The table of lines has the lines in which a request started, each with the number of the
requests that did. -/
theorem get?_lines (accounts : channel.AccountsFor accesses) (key count : Nat) :
    channel.lines.get? key = some count ↔
      lineBytes ∣ key ∧ 0 < count ∧ accesses.countP (·.startsIn key) = count := by
  have observed : (accesses.filterMap MemoryAccess.line?).count key =
      accesses.countP fun access => lineBytes ∣ key ∧ access.startsIn key = true := by
    rw [List.count_filterMap]
    apply List.countP_congr
    intro access _
    simp [MemoryAccess.line?_eq_some_iff]
  rw [accounts.lines, Histogram.get?_ofList_eq_some_iff, observed]
  by_cases aligned : lineBytes ∣ key
  · simp [aligned]
  · simp only [aligned, false_and, decide_false, List.countP_false, Function.const_apply, iff_false,
      not_and]
    omega

/-- All counts of lines together are the number of the requests with a known address. -/
theorem total_lines (accounts : channel.AccountsFor accesses) :
    channel.lines.total = accesses.countP (·.addr.isSome) := by
  rw [accounts.lines, Histogram.total_ofList, List.length_filterMap_eq_countP]
  simp [MemoryAccess.line?]

end AccountsFor

theorem accounts_after (calls : List Call) : (after calls).AccountsFor (requests calls) := by
  induction calls using List.reverseRecOn with
  | nil => exact .empty
  | append_singleton calls call ih =>
    rw [after_concat, requests_concat]
    cases completed : call.request? with
    | none =>
      rw [Option.toList_none, List.append_nil]
      exact ih.other completed
    | some access =>
      obtain rfl : call = .request access := by
        cases call <;> simp_all [Call.request?]
      exact ih.request access

/-! ## The order of the requests -/

/-- The channel reduced to its counts: without the sums of latencies and bytes, the peak, the bus
and the requests that found all ports busy. -/
def counts (channel : Channel) : Channel :=
  { channel with
    totalLatency := 0, portStalls := 0, totalBytes := 0, peakBytesPerCycle := 0, busWidth := 0
    cycleBytes := 0 }

/-- The same requests in another order have the same counters. -/
theorem AccountsFor.perm {channel : Channel} {accesses others : List MemoryAccess}
    (accounts : channel.AccountsFor accesses) (permuted : accesses.Perm others) :
    channel.AccountsFor others := by
  have same : latencies accesses = latencies others := by
    ext latency
    simp only [latencies, permuted.mem_iff, Set.mem_ofPred_eq]
  have emptied : accesses = [] ↔ others = [] :=
    ⟨fun none => (none ▸ permuted).nil_eq.symm, fun none => (none ▸ permuted).eq_nil⟩
  exact {
    count := accounts.count.trans permuted.length_eq
    served := fun service => (accounts.served service).trans (permuted.countP_eq _)
    noLeast_iff := accounts.noLeast_iff.trans emptied
    least := same ▸ accounts.least
    greatest := fun used => same ▸ accounts.greatest (mt emptied.1 used)
    idle := fun none => accounts.idle (emptied.2 none)
    lines := accounts.lines.trans (Histogram.ofList_perm (permuted.filterMap _)) }

/-- The counts of a channel are determined by the requests that it accounts for. -/
theorem AccountsFor.counts_eq {left right : Channel} {accesses : List MemoryAccess}
    (leftAccounts : left.AccountsFor accesses) (rightAccounts : right.AccountsFor accesses) :
    left.counts = right.counts := by
  have served (service : Service) : left.served service = right.served service :=
    (leftAccounts.served service).trans (rightAccounts.served service).symm
  have least : left.minLatency = right.minLatency := by
    cases known : left.minLatency with
    | none => exact (rightAccounts.noLeast_iff.2 (leftAccounts.noLeast_iff.1 known)).symm
    | some latency =>
      cases found : right.minLatency with
      | none => simp [leftAccounts.noLeast_iff.2 (rightAccounts.noLeast_iff.1 found)] at known
      | some other =>
        rw [(leftAccounts.least latency known).unique (rightAccounts.least other found)]
  have greatest : left.maxLatency = right.maxLatency := by
    by_cases none : accesses = []
    · rw [leftAccounts.idle none, rightAccounts.idle none]
    · exact (leftAccounts.greatest none).unique (rightAccounts.greatest none)
  have count : left.count = right.count := leftAccounts.count.trans rightAccounts.count.symm
  have lines : left.lines = right.lines := leftAccounts.lines.trans rightAccounts.lines.symm
  have hits : left.cacheHits = right.cacheHits := served .hit
  have misses : left.cacheMisses = right.cacheMisses := served .miss
  have spm : left.spm = right.spm := served .spm
  have dma : left.dma = right.dma := served .dma
  have localMemory : left.localMemory = right.localMemory := served .localMemory
  simp only [counts, count, hits, misses, spm, dma, localMemory, least, greatest, lines]

end Channel

namespace MemoryTraffic

/-- The reads among some calls, or else the writes. -/
def requests (ofReads : Bool) (calls : List Call) : List MemoryAccess :=
  Channel.requests (calls.filterMap (Call.side? ofReads))

/-- The traffic with its channels reduced to their counts. -/
def counts (traffic : MemoryTraffic) : MemoryTraffic :=
  { traffic with reads := traffic.reads.counts, writes := traffic.writes.counts }

/-! ## The cache in both directions -/

theorem cacheHits_countCache (traffic : MemoryTraffic) (access : MemoryAccess) :
    (traffic.countCache access).cacheHits =
      traffic.cacheHits + if access.service = .hit then 1 else 0 := by
  obtain ⟨kind, addr, bytes, latency, cacheHit⟩ := access
  cases kind <;> cases cacheHit <;> rfl

theorem cacheMisses_countCache (traffic : MemoryTraffic) (access : MemoryAccess) :
    (traffic.countCache access).cacheMisses =
      traffic.cacheMisses + if access.service = .miss then 1 else 0 := by
  obtain ⟨kind, addr, bytes, latency, cacheHit⟩ := access
  cases kind <;> cases cacheHit <;> rfl

/-- What the cache had and did not have is counted as often for both directions together as for the
two of them. -/
structure Balanced (traffic : MemoryTraffic) : Prop where
  hits : traffic.cacheHits = traffic.reads.cacheHits + traffic.writes.cacheHits
  misses : traffic.cacheMisses = traffic.reads.cacheMisses + traffic.writes.cacheMisses

namespace Balanced

variable {traffic : MemoryTraffic}

theorem read (balanced : traffic.Balanced) (access : MemoryAccess) :
    (traffic.recordRead access).Balanced where
  hits := by
    change (traffic.countCache access).cacheHits =
      (traffic.reads.record access).served .hit + (traffic.countCache access).writes.cacheHits
    rw [cacheHits_countCache, balanced.hits, Channel.served_record, countCache_writes]
    exact Nat.add_right_comm _ _ _
  misses := by
    change (traffic.countCache access).cacheMisses =
      (traffic.reads.record access).served .miss + (traffic.countCache access).writes.cacheMisses
    rw [cacheMisses_countCache, balanced.misses, Channel.served_record, countCache_writes]
    exact Nat.add_right_comm _ _ _

theorem write (balanced : traffic.Balanced) (access : MemoryAccess) :
    (traffic.recordWrite access).Balanced where
  hits := by
    change (traffic.countCache access).cacheHits =
      (traffic.countCache access).reads.cacheHits + (traffic.writes.record access).served .hit
    rw [cacheHits_countCache, balanced.hits, Channel.served_record, countCache_reads]
    exact Nat.add_assoc _ _ _
  misses := by
    change (traffic.countCache access).cacheMisses =
      (traffic.countCache access).reads.cacheMisses + (traffic.writes.record access).served .miss
    rw [cacheMisses_countCache, balanced.misses, Channel.served_record, countCache_reads]
    exact Nat.add_assoc _ _ _

/-- Only requests touch the counters of the cache. -/
theorem receive (balanced : traffic.Balanced) (call : Call) : (traffic.receive call).Balanced := by
  cases call with
  | read access => exact balanced.read access
  | write access => exact balanced.write access
  | portStall isRead => cases isRead <;> exact ⟨balanced.hits, balanced.misses⟩
  | busWidths => exact ⟨balanced.hits, balanced.misses⟩
  | endCycle => exact ⟨balanced.hits, balanced.misses⟩

/-- The counts of balanced traffic are those of its channels. -/
theorem counts_eq {left right : MemoryTraffic} (leftBalanced : left.Balanced)
    (rightBalanced : right.Balanced) (reads : left.reads.counts = right.reads.counts)
    (writes : left.writes.counts = right.writes.counts) : left.counts = right.counts := by
  have hits : left.cacheHits = right.cacheHits :=
    calc left.cacheHits
      _ = left.reads.counts.cacheHits + left.writes.counts.cacheHits := leftBalanced.hits
      _ = right.reads.counts.cacheHits + right.writes.counts.cacheHits := by rw [reads, writes]
      _ = right.cacheHits := rightBalanced.hits.symm
  have misses : left.cacheMisses = right.cacheMisses :=
    calc left.cacheMisses
      _ = left.reads.counts.cacheMisses + left.writes.counts.cacheMisses := leftBalanced.misses
      _ = right.reads.counts.cacheMisses + right.writes.counts.cacheMisses := by rw [reads, writes]
      _ = right.cacheMisses := rightBalanced.misses.symm
  simp only [counts, reads, writes, hits, misses]

end Balanced

theorem balanced_after (calls : List Call) : (after calls).Balanced := by
  induction calls using List.reverseRecOn with
  | nil => exact ⟨rfl, rfl⟩
  | append_singleton calls call ih =>
    rw [after, List.foldl_append]
    exact ih.receive call

/-- After any calls, each channel counts its requests: all of them, and by the way in which they
were served, which adds up. Its smallest and largest latency are those of the requests, and the
first is missing exactly if there was no request. Its lines are the aligned ones in which a request
started, each with the number of the requests that did, and the counts of the lines add up to the
number of requests with an address. The hits and misses of the cache are those of both channels. Any
run with the same reads and the same writes, in whatever order, has the same counts. -/
theorem requests_accounted_for (calls : List Call) :
    let traffic := after calls
    let both := requests true calls ++ requests false calls
    (∀ ofReads,
      let channel := traffic.side ofReads
      let accesses := requests ofReads calls
      channel.AccountsFor accesses ∧
      channel.count = channel.cacheHits + channel.cacheMisses + channel.spm + channel.dma +
        channel.localMemory ∧
      (∀ key count, channel.lines.get? key = some count ↔
        lineBytes ∣ key ∧ 0 < count ∧ accesses.countP (·.startsIn key) = count) ∧
      channel.lines.total = accesses.countP (·.addr.isSome)) ∧
    (traffic.cacheHits = traffic.reads.cacheHits + traffic.writes.cacheHits ∧
      traffic.cacheHits = both.countP (·.service = .hit) ∧
      traffic.cacheMisses = traffic.reads.cacheMisses + traffic.writes.cacheMisses ∧
      traffic.cacheMisses = both.countP (·.service = .miss)) ∧
    ∀ others, (∀ ofReads, (requests ofReads others).Perm (requests ofReads calls)) →
      (after others).counts = traffic.counts := by
  intro traffic both
  have accounts (ofReads : Bool) (calls : List Call) :
      ((after calls).side ofReads).AccountsFor (requests ofReads calls) := by
    rw [side_after]
    exact Channel.accounts_after _
  refine ⟨fun ofReads => ?_, ?_, ?_⟩
  · have tells := accounts ofReads calls
    exact ⟨tells, tells.count_eq, tells.get?_lines, tells.total_lines⟩
  · have reads := (accounts true calls).served
    have writes := (accounts false calls).served
    have balanced := balanced_after calls
    refine ⟨balanced.hits, ?_, balanced.misses, ?_⟩
    · rw [List.countP_append, ← reads, ← writes]
      exact balanced.hits
    · rw [List.countP_append, ← reads, ← writes]
      exact balanced.misses
  · intro others permuted
    have same (ofReads : Bool) :
        ((after others).side ofReads).counts = (traffic.side ofReads).counts :=
      ((accounts ofReads others).perm (permuted ofReads)).counts_eq (accounts ofReads calls)
    exact (balanced_after others).counts_eq (balanced_after calls) (same true) (same false)

-- The first two reads are in one line, at its first and at its last byte. The third one is in the
-- next line, the fourth has no address, and the write counts for the other channel.
example :
    let dma (addr : Option UInt64) : MemoryAccess := ⟨.dma, addr, 4, 1, true⟩
    let traffic := after [.read (dma (some 64)), .read (dma (some 127)), .read (dma (some 128)),
      .read (dma none), .write (dma (some 64))]
    traffic.reads.lines.entries = [(64, 2), (128, 1)] ∧ traffic.reads.dma = 4 ∧
      traffic.cacheHits = 0 := by decide

end MemoryTraffic

end AccelProfile
