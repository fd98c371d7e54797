import Mathlib.Data.List.DropRight
import Mathlib.Data.List.Induction
import Mathlib.Order.Bounds.Basic
import AccelProfile.CycleWindow

/-!
# The latest samples of a run

The window of cycle samples forgets: it drops the oldest sample when it is full, and a new sample
is written over the one before. What it holds is told here by a history that forgets nothing. The
history of a run follows from the calls alone: each end of a cycle adds what was filled in last
since the latest start, under the number of its cycle.

Two facts carry this from call to call. The sample under way is what was filled in last, but for its
cycle number, which the end before may have written over. And the samples of the window are the end
of the history, as long as the window is: to drop the oldest of a full window and to add the newest
is to move one further in the history.
-/

namespace AccelProfile

namespace CycleSummary

/-- A mean and a peak are those of a number of the samples. The mean is the quotient of the sum and
of how many there are. Without samples both are zero. -/
structure Measures (samples : List CycleSample) (number : CycleSample → UInt32) (mean : Float)
    (peak : Nat) : Prop where
  mean : mean =
    if samples = [] then 0
    else (samples.map fun sample => (number sample).toNat).sum.toFloat / samples.length.toFloat
  peak : IsGreatest (insert 0 {count | ∃ sample ∈ samples, (number sample).toNat = count}) peak

/-- A summary tells what some samples amount to, and how many others there were. -/
structure Describes (summary : CycleSummary) (samples : List CycleSample) (others : Nat) :
    Prop where
  count : summary.samples = samples.length
  evicted : summary.evicted = others
  reservation :
    Measures samples (·.reservationInFlight) summary.avgReservation summary.peakReservation
  load : Measures samples (·.loadInFlight) summary.avgLoad summary.peakLoad
  store : Measures samples (·.storeInFlight) summary.avgStore summary.peakStore
  compute : Measures samples (·.computeInFlight) summary.avgCompute summary.peakCompute
  loadRawStalls :
    summary.loadRawStalls = (samples.map fun sample => sample.loadRawStall.toNat).sum
  computeFuStalls :
    summary.computeFuStalls = (samples.map fun sample => sample.computeFuStall.toNat).sum

end CycleSummary

namespace CycleWindow

/-! ## Histories -/

/-- One thing that is done with a window. -/
inductive Call
  /-- A cycle starts. -/
  | start
  /-- The sample of the cycle under way is filled in. -/
  | setCurrent (sample : CycleSample)
  /-- A cycle ends. -/
  | finish (cycle : UInt64)
  deriving DecidableEq

/-- The window after a call. -/
def receive (window : CycleWindow) : Call → CycleWindow
  | .start => window.start
  | .setCurrent sample => window.setCurrent sample
  | .finish cycle => window.finish cycle

/-- The window of two buffers after any calls. -/
def after (bufferSize : Nat) (calls : List Call) : CycleWindow :=
  calls.foldl receive (ofBuffer bufferSize)

/-- The sample that a call fills in. -/
def Call.sample? : Call → Option CycleSample
  | .setCurrent sample => some sample
  | .start | .finish _ => none

/-- What was filled in last since the latest start, or since the window was made if there was none:
the clear sample if nothing was. -/
def filledIn (calls : List Call) : CycleSample :=
  ((calls.rtakeWhile (· ≠ .start)).filterMap Call.sample?).getLast?.getD .zero

/-- The sample that a call stores behind other calls. -/
def Call.stored? (earlier : List Call) : Call → Option CycleSample
  | .finish cycle => some { filledIn earlier with cycle }
  | .start | .setCurrent _ => none

/-- The samples that calls store behind other calls. -/
def storedBehind (earlier : List Call) : List Call → List CycleSample
  | [] => []
  | call :: later => (call.stored? earlier).toList ++ storedBehind (earlier ++ [call]) later

/-- All samples that calls store, the oldest one first. -/
def history (calls : List Call) : List CycleSample :=
  storedBehind [] calls

theorem after_concat (bufferSize : Nat) (calls : List Call) (call : Call) :
    after bufferSize (calls ++ [call]) = (after bufferSize calls).receive call := by
  simp [after]

/-- A start clears the sample, a sample replaces what was filled in before, and the end of a cycle
leaves it as it is. -/
theorem filledIn_concat (calls : List Call) (call : Call) :
    filledIn (calls ++ [call]) =
      match call with
      | .start => .zero
      | .setCurrent sample => sample
      | .finish _ => filledIn calls := by
  cases call <;> simp [filledIn, Call.sample?]

theorem history_concat (calls : List Call) (call : Call) :
    history (calls ++ [call]) = history calls ++ (call.stored? calls).toList := by
  suffices general : ∀ earlier, storedBehind earlier (calls ++ [call]) =
      storedBehind earlier calls ++ (call.stored? (earlier ++ calls)).toList from general []
  induction calls with
  | nil => simp [storedBehind]
  | cons head tail ih => simp [storedBehind, ih]

/-! ## The end of the history -/

/-- The last items of a longer list are the last items before, without the oldest one if there are
as many as one wants, and the new item. -/
theorem rtake_concat {α : Type} (items : List α) (item : α) {count : Nat} (positive : 0 < count) :
    (items ++ [item]).rtake count =
      (if (items.rtake count).length = count then (items.rtake count).drop 1
        else items.rtake count) ++ [item] := by
  obtain ⟨fewer, rfl⟩ := Nat.exists_eq_add_one.2 positive
  rw [List.rtake_concat_succ]
  congr 1
  simp only [List.rtake, List.length_drop, List.drop_drop]
  split <;> (congr 1; omega)

/-- A window holds what calls have stored last, and has counted the rest. -/
structure Holds (window : CycleWindow) (calls : List Call) : Prop where
  /-- There is room for a sample. -/
  room : 0 < window.capacity
  /-- The sample under way is what was filled in last, but for the number of its cycle. -/
  current : ∀ cycle, { window.current with cycle } = { filledIn calls with cycle }
  /-- The samples are the last ones of the history. -/
  samples : window.samples = (history calls).rtake window.capacity
  /-- The other samples of the history have made room. -/
  evicted : window.evicted + window.samples.length = (history calls).length

/-- No call changes how many samples a window holds at most. -/
theorem capacity_receive (window : CycleWindow) (call : Call) :
    (window.receive call).capacity = window.capacity := by
  cases call with
  | finish cycle =>
    simp only [receive, finish]
    split <;> rfl
  | _ => rfl

namespace Holds

variable {window : CycleWindow} {calls : List Call}

/-- A call that stores nothing keeps all but the sample under way. -/
theorem receive_of_none (holds : window.Holds calls) {call : Call}
    (nothing : call.stored? calls = none) : (window.receive call).Holds (calls ++ [call]) := by
  have kept : history (calls ++ [call]) = history calls := by
    rw [history_concat, nothing, Option.toList_none, List.append_nil]
  cases call with
  | finish => cases nothing
  | _ =>
    refine ⟨holds.room, fun cycle => ?_, kept ▸ holds.samples, kept ▸ holds.evicted⟩
    rw [filledIn_concat]
    rfl

/-- The end of a cycle stores what was filled in last, at the end of the window as at the end of
the history. -/
theorem finish (holds : window.Holds calls) (cycle : UInt64) :
    (window.finish cycle).Holds (calls ++ [.finish cycle]) := by
  have grown : history (calls ++ [.finish cycle]) =
      history calls ++ [{ window.current with cycle }] := by
    rw [history_concat, holds.current cycle]
    rfl
  have moved := rtake_concat (history calls) { window.current with cycle } holds.room
  rw [← holds.samples] at moved
  have current (number : UInt64) : { window.current with cycle := number } =
      { filledIn (calls ++ [.finish cycle]) with cycle := number } := by
    rw [filledIn_concat, holds.current number]
  have counted := holds.evicted
  have room := holds.room
  simp only [CycleWindow.finish]
  split
  · next full =>
    rw [if_pos full] at moved
    refine ⟨room, current, ?_, ?_⟩
    · rw [grown, moved]
    · rw [grown]
      simp only [List.length_append, List.length_drop, List.length_singleton]
      omega
  · next spare =>
    rw [if_neg spare] at moved
    refine ⟨room, current, ?_, ?_⟩
    · rw [grown, moved]
    · rw [grown]
      simp only [List.length_append, List.length_singleton]
      omega

/-- Every call keeps a window at the end of the history. -/
theorem receive (holds : window.Holds calls) (call : Call) :
    (window.receive call).Holds (calls ++ [call]) := by
  cases call with
  | finish cycle => exact holds.finish cycle
  | _ => exact holds.receive_of_none rfl

end Holds

theorem holds_after (bufferSize : Nat) (calls : List Call) :
    (after bufferSize calls).Holds calls := by
  induction calls using List.reverseRecOn with
  | nil =>
    have room : 0 < 2 * max bufferSize 1 := by omega
    exact ⟨room, fun _ => rfl, (List.rtake_nil _).symm, rfl⟩
  | append_singleton calls call ih =>
    rw [after_concat]
    exact ih.receive call

theorem capacity_after (bufferSize : Nat) (calls : List Call) :
    (after bufferSize calls).capacity = 2 * max bufferSize 1 := by
  induction calls using List.reverseRecOn with
  | nil => rfl
  | append_singleton calls call ih => rw [after_concat, capacity_receive, ih]

/-! ## The summary of the window -/

/-- The peak is the largest value of a number among the samples, and zero if there are none. -/
theorem isGreatest_peakOf (window : CycleWindow) (number : CycleSample → UInt32) :
    IsGreatest (insert 0 {count | ∃ sample ∈ window.samples, (number sample).toNat = count})
      (window.peakOf number) := by
  rw [peakOf]
  generalize window.samples = samples
  induction samples using List.reverseRecOn with
  | nil => simp
  | append_singleton samples sample ih =>
    have more : {count | ∃ known ∈ samples ++ [sample], (number known).toNat = count} =
        insert (number sample).toNat {count | ∃ known ∈ samples, (number known).toNat = count} := by
      ext count
      simp [or_and_right, exists_or, or_comm, eq_comm]
    rw [more, Set.insert_comm, List.foldl_append, List.foldl_cons, List.foldl_nil, Nat.max_comm]
    exact ih.insert _

theorem measures (window : CycleWindow) (number : CycleSample → UInt32) :
    CycleSummary.Measures window.samples number (window.meanOf number) (window.peakOf number) where
  mean := by simp only [meanOf, ratio, sumOf, List.length_eq_zero_iff]
  peak := window.isGreatest_peakOf number

theorem summarize_describes (window : CycleWindow) :
    window.summarize.Describes window.samples window.evicted where
  count := rfl
  evicted := rfl
  reservation := window.measures _
  load := window.measures _
  store := window.measures _
  compute := window.measures _
  loadRawStalls := rfl
  computeFuStalls := rfl

/-- After any calls, the samples of the window are the last ones of the history, as many as two
buffers hold or all of them if there are fewer. The others were counted, and the summary tells what
the samples of the window amount to. -/
theorem window_ends_history (bufferSize : Nat) (calls : List Call) :
    let window := after bufferSize calls
    window.samples <:+ history calls ∧
    window.samples.length = min (history calls).length (2 * max bufferSize 1) ∧
    window.evicted = (history calls).length - window.samples.length ∧
    window.summarize.Describes window.samples window.evicted := by
  intro window
  have holds : window.Holds calls := holds_after bufferSize calls
  refine ⟨?_, ?_, Nat.eq_sub_of_add_eq holds.evicted, window.summarize_describes⟩
  · rw [holds.samples]
    exact List.drop_suffix _ _
  · rw [holds.samples, List.rtake, List.length_drop, capacity_after]
    omega

-- The second sample is stored twice, as no cycle was started between the two ends. The window has
-- room for two samples, so the first one is gone in the end.
example : (after 1 [.setCurrent { CycleSample.zero with loadInFlight := 4 }, .finish 1, .start,
    .setCurrent { CycleSample.zero with loadInFlight := 7 }, .finish 2, .finish 3]).samples =
    [{ CycleSample.zero with cycle := 2, loadInFlight := 7 },
      { CycleSample.zero with cycle := 3, loadInFlight := 7 }] := by decide

end CycleWindow

end AccelProfile
