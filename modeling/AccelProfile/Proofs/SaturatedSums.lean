import AccelProfile.Proofs.BusyUnits
import AccelProfile.Proofs.RequestCounts

/-!
# Sums in one word

Latencies, bytes, issued instructions and busy cycles are added up in one word each, which stops at
its largest value. Stopping at each step is no different from stopping once at the end: nothing is
ever taken away, so what comes after a stop would only have made the exact sum larger. A sum is
therefore the exact sum of all that was added, as far as a word holds it, and does not depend on the
order.

Each sum is moved by one kind of call. The busy cycles are summed for each class and for all classes
together. The cycles of an operation that ends where it starts, or before, are left out of the first
sum by a test and out of the second by a subtraction that stops at zero.
-/

namespace AccelProfile

/-- Stopping at each step gives the same as stopping once at the end. -/
theorem foldl_satAdd (total : Nat) (amounts : List Nat) :
    amounts.foldl satAdd (min total maxWord) = min (total + amounts.sum) maxWord := by
  induction amounts generalizing total with
  | nil => rfl
  | cons amount amounts ih => rw [List.foldl_cons, satAdd_min, ih, List.sum_cons, Nat.add_assoc]

/-- Where each step adds what it tells to a sum in a word, if it tells anything, the sum of a run is
that of all that was told, as far as a word holds it. -/
theorem foldl_wordSum {σ α : Type} {step : σ → α → σ} {told : α → Option Nat} (sum : σ → Nat)
    (adds : ∀ state item, sum (step state item) = (told item).elim (sum state) (satAdd (sum state)))
    {state : σ} (unused : sum state = 0) (items : List α) :
    sum (items.foldl step state) = min (items.filterMap told).sum maxWord := by
  have folded := foldl_satAdd 0 (items.filterMap told)
  rw [Nat.zero_min, Nat.zero_add] at folded
  rw [foldl_part sum adds, unused, folded]

namespace Channel

/-- The latencies of the requests are added up, as far as a word holds them. -/
theorem totalLatency_after (calls : List Call) : (after calls).totalLatency =
    min ((requests calls).map (·.latency.toNat)).sum maxWord := by
  rw [requests, List.map_filterMap]
  apply foldl_wordSum Channel.totalLatency _ rfl
  intro channel call
  cases call <;> rfl

/-- The bytes of the requests are added up, as far as a word holds them. -/
theorem totalBytes_after (calls : List Call) : (after calls).totalBytes =
    min ((requests calls).map (·.bytes.toNat)).sum maxWord := by
  rw [requests, List.map_filterMap]
  apply foldl_wordSum Channel.totalBytes _ rfl
  intro channel call
  cases call <;> rfl

end Channel

/-- The cycles that an operation took, if it took any. -/
def Hold.cycles? (held : Hold) : Option Nat :=
  if held.start < held.stop then some (held.stop - held.start) else none

/-- Operations that took no cycles do not matter where the subtraction stops at zero. -/
theorem sum_cycles (holds : List Hold) :
    (holds.map fun held => held.stop - held.start).sum =
      (holds.filterMap Hold.cycles?).sum := by
  induction holds with
  | nil => rfl
  | cons held holds ih =>
    rw [List.map_cons, List.sum_cons, ih]
    by_cases timed : held.start < held.stop
    · have took : held.cycles? = some (held.stop - held.start) := if_pos timed
      rw [List.filterMap_cons_some took, List.sum_cons]
    · have took : held.cycles? = none := if_neg timed
      rw [List.filterMap_cons_none took]
      omega

namespace FuUsage

/-- The operation that a call records, whatever its class. -/
def Call.anyHold? : Call → Option Hold
  | .hold _ held => some held
  | .contention _ | .instances .. => none

/-- The operations of all classes that were recorded, in the order of their recording. -/
def allHolds (calls : List Call) : List Hold :=
  calls.filterMap Call.anyHold?

/-- A call adds the cycles of an operation of a class to the busy cycles of that class, if the
operation took any, and does not move them otherwise. -/
theorem busyCycles_receive (usage : FuUsage) (call : Call) (fu : FuClass) :
    ((usage.receive call).get fu).busyCycles =
      ((call.hold? fu).bind Hold.cycles?).elim (usage.get fu).busyCycles
        (satAdd (usage.get fu).busyCycles) := by
  cases call with
  | hold second held =>
    have counters := usage.get_modify second fu (·.hold held.start held.stop)
    refine (congrArg FuCounters.busyCycles counters).trans ?_
    by_cases same : second = fu
    · subst same
      by_cases timed : held.start < held.stop <;>
        simp [Call.hold?, Hold.cycles?, FuCounters.hold, timed]
    · simp [Call.hold?, same, Ne.symm same]
  | contention second =>
    exact get_modify_of_kept FuCounters.busyCycles usage second fu
      (fun counters => { counters with contentionStalls := counters.contentionStalls + 1 })
      fun _ => rfl
  | instances second count =>
    exact get_modify_of_kept FuCounters.busyCycles usage second fu ({ · with instances := count })
      fun _ => rfl

/-- The cycles of the operations of a class are added up, as far as a word holds them. -/
theorem busyCycles_after (calls : List Call) (fu : FuClass) : ((after calls).get fu).busyCycles =
    min ((holds fu calls).filterMap Hold.cycles?).sum maxWord := by
  rw [holds, List.filterMap_filterMap]
  apply foldl_wordSum fun usage : FuUsage => (usage.get fu).busyCycles
  · exact fun usage call => usage.busyCycles_receive call fu
  · simp [get, empty, FuCounters.empty]

/-- The cycles of the operations of all classes are added up, as far as a word holds them. -/
theorem totalBusyCycles_after (calls : List Call) : (after calls).totalBusyCycles =
    min ((allHolds calls).filterMap Hold.cycles?).sum maxWord := by
  rw [← sum_cycles, allHolds, List.map_filterMap]
  apply foldl_wordSum FuUsage.totalBusyCycles _ rfl
  intro usage call
  cases call <;> rfl

end FuUsage

namespace Engine

/-- What a call of the engine is to the functional units. -/
def Call.unit? : Call → Option FuUsage.Call
  | .event (.fuBusy fu start stop) => some (.hold fu ⟨start.toNat, stop.toNat⟩)
  | .event (.fuContention fu) => some (.contention fu)
  | .event (.fuInstances fu count) => some (.instances fu count.toNat)
  | _ => none

/-- What a run of the engine is to the functional units. -/
def unitCalls (calls : List Call) : List FuUsage.Call :=
  calls.filterMap Call.unit?

/-- The functional units of an engine are those of its calls. -/
theorem units_after (config : Config) (calls : List Call) :
    (after config calls).summary.units = FuUsage.after (unitCalls calls) := by
  refine foldl_part (fun engine => engine.summary.units) ?_ (start config) calls
  intro engine call
  cases call with
  | event event =>
    cases event with
    | cycleEnd cycle sample => cases sample <;> rfl
    | _ => rfl
  | _ => rfl

/-- The instructions that a call tells to have been issued in a cycle. -/
def Call.issued? : Call → Option Nat
  | .event (.parallelism _ issued) => some issued.toNat
  | _ => none

/-- The issued instructions are added up, as far as a word holds them. -/
theorem issued_after (config : Config) (calls : List Call) :
    (after config calls).summary.dataflow.issued =
      min (calls.filterMap Call.issued?).sum maxWord := by
  refine foldl_wordSum (fun engine : Engine => engine.summary.dataflow.issued) ?_ rfl calls
  intro engine call
  cases call with
  | event event =>
    cases event with
    | cycleEnd cycle sample => cases sample <;> rfl
    | _ => rfl
  | _ => rfl

/-- A sum that a summary keeps in one word. -/
inductive WordSum
  /-- The cycles that the reads took, or else the writes. -/
  | latency (ofReads : Bool)
  /-- The bytes that were read, or else written. -/
  | bytes (ofReads : Bool)
  | issued
  | busy (fu : FuClass)
  | busyOfAll

namespace WordSum

/-- The sum as a summary has it. -/
def value (summary : Summary) : WordSum → Nat
  | .latency ofReads => (summary.memory.side ofReads).totalLatency
  | .bytes ofReads => (summary.memory.side ofReads).totalBytes
  | .issued => summary.dataflow.issued
  | .busy fu => (summary.units.get fu).busyCycles
  | .busyOfAll => summary.units.totalBusyCycles

/-- All that a run adds to the sum. -/
def amounts (calls : List Call) : WordSum → List Nat
  | .latency ofReads => (MemoryTraffic.requests ofReads (traffic calls)).map (·.latency.toNat)
  | .bytes ofReads => (MemoryTraffic.requests ofReads (traffic calls)).map (·.bytes.toNat)
  | .issued => calls.filterMap Call.issued?
  | .busy fu => (FuUsage.holds fu (unitCalls calls)).filterMap Hold.cycles?
  | .busyOfAll => (FuUsage.allHolds (unitCalls calls)).filterMap Hold.cycles?

variable (sum : WordSum)

theorem value_after (config : Config) (calls : List Call) :
    sum.value (after config calls).summary = min (sum.amounts calls).sum maxWord := by
  cases sum with
  | latency ofReads =>
    rw [value, memory_after, MemoryTraffic.side_after, Channel.totalLatency_after]
    rfl
  | bytes ofReads =>
    rw [value, memory_after, MemoryTraffic.side_after, Channel.totalBytes_after]
    rfl
  | issued => exact issued_after config calls
  | busy fu =>
    rw [value, units_after, FuUsage.busyCycles_after]
    rfl
  | busyOfAll =>
    rw [value, units_after, FuUsage.totalBusyCycles_after]
    rfl

theorem amounts_append (calls more : List Call) :
    sum.amounts (calls ++ more) = sum.amounts calls ++ sum.amounts more := by
  cases sum <;>
    simp [amounts, MemoryTraffic.requests, Channel.requests, traffic, FuUsage.holds,
      FuUsage.allHolds, unitCalls]

theorem amounts_perm {calls others : List Call} (permuted : others.Perm calls) :
    (sum.amounts others).Perm (sum.amounts calls) := by
  cases sum with
  | latency ofReads => exact (((permuted.filterMap _).filterMap _).filterMap _).map _
  | bytes ofReads => exact (((permuted.filterMap _).filterMap _).filterMap _).map _
  | issued => exact permuted.filterMap _
  | busy fu => exact ((permuted.filterMap _).filterMap _).filterMap _
  | busyOfAll => exact ((permuted.filterMap _).filterMap _).filterMap _

end WordSum

/-- After any run, each of the sums is the exact sum of all that was added to it, or the largest
word if that is smaller, and it is the same for the same calls in another order. Further calls never
make a sum smaller, and once it is at the largest word it stays there. -/
theorem sums_stop_at_largest_word (config : Config) (calls : List Call) (sum : WordSum) :
    let final (run : List Call) := sum.value (after config run).summary
    final calls = min (sum.amounts calls).sum maxWord ∧
    (∀ others, others.Perm calls → final others = final calls) ∧
    (∀ more, final calls ≤ final (calls ++ more)) ∧
    (final calls = maxWord → ∀ more, final (calls ++ more) = maxWord) := by
  intro final
  have exact (run : List Call) : final run = min (sum.amounts run).sum maxWord :=
    sum.value_after config run
  have grows (more : List Call) : final calls ≤ final (calls ++ more) := by
    rw [exact, exact, sum.amounts_append, List.sum_append_nat]
    omega
  refine ⟨exact calls, fun others permuted => ?_, grows, fun full more => ?_⟩
  · rw [exact, exact, (sum.amounts_perm permuted).sum_nat]
  · have limited : final (calls ++ more) ≤ maxWord := exact (calls ++ more) ▸ Nat.min_le_right _ _
    have kept := grows more
    omega

-- The second operation fills the word of its class, the third ends before it starts, and the
-- fourth changes nothing any more.
example :
    let busy (start stop : UInt64) : Call := .event (.fuBusy .gep start stop)
    let calls := [busy 2 5, busy 1 0xFFFFFFFFFFFFFFFF, busy 9 4, busy 0 7]
    (WordSum.busy .gep).amounts calls = [3, 0xFFFFFFFFFFFFFFFE, 7] ∧
      (WordSum.busy .gep).value (after .standard calls).summary = maxWord := by decide

end Engine

end AccelProfile
