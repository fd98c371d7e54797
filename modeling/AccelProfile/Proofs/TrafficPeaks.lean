import AccelProfile.Proofs.EngineCalls
import AccelProfile.Proofs.PieceWeights

/-!
# Peaks of the memory traffic

Reads and writes are two channels that know nothing of each other: what a call means to the one is
all that moves the one. The ends of cycles are common to both, and cut the calls of a channel into
windows. The bytes of the window that is open are summed up to the limit of a word, and the peak
follows that sum. Inside a window the sum only grows, so what the peak takes over in the middle of a
window is no larger than what it takes over at the end, and the peak is the largest sum of a window.

The traffic of an engine is that of its calls. Each end of a cycle closes the windows there, whether
cycles are sampled or not.
-/

namespace AccelProfile

namespace Channel

open Text (pieces Weighs)

/-- One thing that happens to a channel. -/
inductive Call
  /-- A request completes. -/
  | request (access : MemoryAccess)
  /-- A request finds all ports busy. -/
  | portStall
  /-- The width of the bus becomes known. -/
  | busWidth (width : Nat)
  /-- A cycle ends. -/
  | endCycle
  deriving DecidableEq

/-- The channel after a call. -/
def receive (channel : Channel) : Call → Channel
  | .request access => channel.record access
  | .portStall => channel.recordPortStall
  | .busWidth width => { channel with busWidth := width }
  | .endCycle => channel.endCycle

/-- The channel after any calls. -/
def after (calls : List Call) : Channel :=
  calls.foldl receive .empty

/-- The bytes that a call moves, if it is a request. -/
def Call.bytes? : Call → Option Nat
  | .request access => some access.bytes.toNat
  | .portStall | .busWidth _ | .endCycle => none

/-- The bytes that calls move, as far as a word holds them. -/
def bytesOf (calls : List Call) : Nat :=
  min (calls.filterMap Call.bytes?).sum maxWord

/-- The windows of some calls: what lies between the ends of cycles, and behind the last one. -/
def windows (calls : List Call) : List (List Call) :=
  pieces .endCycle calls

theorem after_concat (calls : List Call) (call : Call) :
    after (calls ++ [call]) = (after calls).receive call := by
  simp [after]

/-- A request adds its bytes as far as they fit. -/
theorem bytesOf_concat_request (calls : List Call) (access : MemoryAccess) :
    bytesOf (calls ++ [.request access]) = satAdd (bytesOf calls) access.bytes.toNat := by
  rw [bytesOf, bytesOf, satAdd_min, List.filterMap_append, List.sum_append_nat]
  rfl

theorem bytesOf_concat_of_none (calls : List Call) {call : Call} (nothing : call.bytes? = none) :
    bytesOf (calls ++ [call]) = bytesOf calls := by
  simp [bytesOf, nothing]

/-- The byte counts of a channel are those of its windows, and none is above the total. -/
structure Tells (channel : Channel) (calls : List Call) : Prop where
  sums : Weighs bytesOf .endCycle calls channel.cycleBytes channel.peakBytesPerCycle
  peak_le : channel.peakBytesPerCycle ≤ channel.totalBytes

namespace Tells

variable {channel : Channel} {calls : List Call}

/-- A request moves the peak if the sum of the open window gets above it. The total grows by no less
than that sum, which is at most the peak before. -/
theorem request (tells : channel.Tells calls) (access : MemoryAccess) :
    (channel.record access).Tells (calls ++ [.request access]) := by
  have grows : channel.cycleBytes ≤ satAdd channel.cycleBytes access.bytes.toNat := by
    have limited : channel.cycleBytes ≤ maxWord := tells.sums.last ▸ Nat.min_le_right _ _
    exact Nat.le_min.2 ⟨Nat.le_add_right _ _, limited⟩
  constructor
  · refine tells.sums.concat_of_ne Call.noConfusion grows ?_
    rw [bytesOf_concat_request, tells.sums.last]
    rfl
  · have open_le := Nat.le_trans tells.sums.last_le_largest tells.peak_le
    have peak_le := tells.peak_le
    have limited : channel.peakBytesPerCycle ≤ maxWord := by
      obtain ⟨window, -, bytes⟩ := tells.sums.largest.1
      exact bytes ▸ Nat.min_le_right _ _
    simp only [record, satAdd]
    omega

/-- A call that moves no bytes and ends no cycle leaves the sums of the windows alone. -/
theorem sums_concat (tells : channel.Tells calls) {call : Call} (plain : call ≠ .endCycle)
    (nothing : call.bytes? = none) :
    Weighs bytesOf .endCycle (calls ++ [call]) channel.cycleBytes channel.peakBytesPerCycle := by
  apply tells.sums.concat_weightless plain
  rw [bytesOf_concat_of_none _ nothing, tells.sums.last]

theorem receive (tells : channel.Tells calls) (call : Call) :
    (channel.receive call).Tells (calls ++ [call]) := by
  cases call with
  | request access => exact tells.request access
  | portStall => exact ⟨tells.sums_concat Call.noConfusion rfl, tells.peak_le⟩
  | busWidth width => exact ⟨tells.sums_concat Call.noConfusion rfl, tells.peak_le⟩
  | endCycle => exact ⟨tells.sums.concat_mark rfl, tells.peak_le⟩

end Tells

theorem tells_after (calls : List Call) : (after calls).Tells calls := by
  induction calls using List.reverseRecOn with
  | nil => exact ⟨.nil rfl, Nat.le_refl 0⟩
  | append_singleton calls call ih =>
    rw [after_concat]
    exact ih.receive call

end Channel

namespace MemoryTraffic

/-- One thing that happens to the memory traffic. -/
inductive Call
  | read (access : MemoryAccess)
  | write (access : MemoryAccess)
  | portStall (isRead : Bool)
  | busWidths (readWidth writeWidth : Nat)
  | endCycle
  deriving DecidableEq

/-- The traffic after a call. -/
def receive (traffic : MemoryTraffic) : Call → MemoryTraffic
  | .read access => traffic.recordRead access
  | .write access => traffic.recordWrite access
  | .portStall isRead => traffic.recordPortStall isRead
  | .busWidths readWidth writeWidth => traffic.setBusWidths readWidth writeWidth
  | .endCycle => traffic.endCycle

/-- The traffic after any calls. -/
def after (calls : List Call) : MemoryTraffic :=
  calls.foldl receive .empty

/-- The channel of the reads, or else that of the writes. -/
def side (ofReads : Bool) (traffic : MemoryTraffic) : Channel :=
  if ofReads then traffic.reads else traffic.writes

/-- What a call is to the channel of the reads, or else to that of the writes. -/
def Call.side? (ofReads : Bool) : Call → Option Channel.Call
  | .read access => if ofReads then some (.request access) else none
  | .write access => if ofReads then none else some (.request access)
  | .portStall isRead => if isRead = ofReads then some .portStall else none
  | .busWidths readWidth writeWidth => some (.busWidth (if ofReads then readWidth else writeWidth))
  | .endCycle => some .endCycle

/-- A call moves each channel by what it is to that channel. -/
theorem side_receive (ofReads : Bool) (traffic : MemoryTraffic) (call : Call) :
    (traffic.receive call).side ofReads =
      (call.side? ofReads).elim (traffic.side ofReads) (traffic.side ofReads).receive := by
  cases ofReads <;> cases call with
  | read access => simp [receive, recordRead, side, Call.side?, Channel.receive]
  | write access => simp [receive, recordWrite, side, Call.side?, Channel.receive]
  | portStall isRead => cases isRead <;> rfl
  | _ => rfl

/-- Each channel of a run is that of its own calls. -/
theorem side_after (ofReads : Bool) (calls : List Call) :
    (after calls).side ofReads = Channel.after (calls.filterMap (Call.side? ofReads)) := by
  have moved := foldl_part (side ofReads) (side_receive ofReads) .empty calls
  cases ofReads <;> exact moved

end MemoryTraffic

namespace Engine

/-- What a call of the engine is to the memory traffic. -/
def Call.traffic? : Call → Option MemoryTraffic.Call
  | .event (.memoryRead access) => some (.read access)
  | .event (.memoryWrite access) => some (.write access)
  | .event (.portContention isRead) => some (.portStall isRead)
  | .event (.busWidths read write) => some (.busWidths read.toNat write.toNat)
  | .event (.cycleEnd _ _) => some .endCycle
  | _ => none

/-- What a run of the engine is to the memory traffic. -/
def traffic (calls : List Call) : List MemoryTraffic.Call :=
  calls.filterMap Call.traffic?

theorem memory_receive (engine : Engine) (call : Call) :
    (engine.receive call).summary.memory =
      call.traffic?.elim engine.summary.memory engine.summary.memory.receive := by
  cases call with
  | event event =>
    cases event with
    | cycleEnd cycle sample => cases sample <;> rfl
    | _ => rfl
  | _ => rfl

/-- The memory traffic of an engine is that of its calls. -/
theorem memory_after (config : Config) (calls : List Call) :
    (after config calls).summary.memory = MemoryTraffic.after (traffic calls) :=
  foldl_part (fun engine => engine.summary.memory) memory_receive (start config) calls

end Engine

namespace MemoryTraffic

/-- After any calls, the peak of the reads is the most bytes that were read in one window, the open
one included and as far as a word holds them, and is no larger than the total. So is the peak of the
writes. The traffic of an engine is that of its calls: with any configuration, each end of a cycle
closes the windows. -/
theorem peak_of_windows (calls : List Call) (config : Config) (engineCalls : List Engine.Call) :
    let reads := (after calls).reads
    let writes := (after calls).writes
    let sums (ofReads : Bool) := {bytes | ∃ window ∈
      Channel.windows (calls.filterMap (Call.side? ofReads)), Channel.bytesOf window = bytes}
    (IsGreatest (sums true) reads.peakBytesPerCycle ∧
      reads.peakBytesPerCycle ≤ reads.totalBytes) ∧
    (IsGreatest (sums false) writes.peakBytesPerCycle ∧
      writes.peakBytesPerCycle ≤ writes.totalBytes) ∧
    (Engine.after config engineCalls).summary.memory = after (Engine.traffic engineCalls) := by
  intro reads writes sums
  have tells (ofReads : Bool) :
      ((after calls).side ofReads).Tells (calls.filterMap (Call.side? ofReads)) := by
    rw [side_after]
    exact Channel.tells_after _
  exact ⟨⟨(tells true).sums.largest, (tells true).peak_le⟩,
    ⟨(tells false).sums.largest, (tells false).peak_le⟩,
    foldl_part (fun engine => engine.summary.memory) Engine.memory_receive (Engine.start config)
      engineCalls⟩

-- The two reads of the first cycle make the peak, though a later read is larger than each of them,
-- and the writes between them count for the other channel.
example :
    let spm (bytes : UInt64) : MemoryAccess := ⟨.spm, none, bytes, 1, false⟩
    let traffic := after [.read (spm 16), .write (spm 40), .read (spm 16), .endCycle,
      .read (spm 24), .write (spm 1), .endCycle, .endCycle]
    traffic.reads.peakBytesPerCycle = 32 ∧ traffic.writes.peakBytesPerCycle = 40 := by decide

end MemoryTraffic

end AccelProfile
