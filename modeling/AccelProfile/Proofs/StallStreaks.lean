import Mathlib.Algebra.Order.BigOperators.Group.List
import Mathlib.Algebra.Order.Ring.Nat
import AccelProfile.Proofs.PieceWeights
import AccelProfile.Stall

/-!
# Streaks of stalls

The breakdown of stalls sees one cycle at a time and keeps no history, but its counters tell facts
about the history as a whole: how many streaks of stalls there were and how long the longest one
was. Cycles of progress cut the history into pieces, and the streaks are the pieces in which there
is anything. A stall makes the last piece longer, and is the first of a streak if that piece was
empty; progress opens an empty piece. So the streak under way is the last piece, and the longest
streak the largest one.

All stalls are in streaks, each of which has at least one stall and no more than the longest streak:
hence the bounds on the number of stalled cycles.
-/

namespace AccelProfile

namespace StallBreakdown

open Text (pieces Weighs)

/-- One cycle as the breakdown sees it. -/
inductive Call
  /-- The cycle was stalled. -/
  | stall (cause : StallCause)
  /-- The cycle made progress. -/
  | progress
  deriving DecidableEq

/-- The breakdown after a cycle. -/
def receive (stalls : StallBreakdown) : Call → StallBreakdown
  | .stall cause => stalls.record cause
  | .progress => stalls.recordProgress

/-- The breakdown after any cycles. -/
def after (calls : List Call) : StallBreakdown :=
  calls.foldl receive .empty

/-- The streaks of some cycles: all stalls between one cycle of progress and the next, where there
are any. -/
def streaksOf (calls : List Call) : List (List Call) :=
  (pieces .progress calls).filter (· ≠ [])

theorem after_concat (calls : List Call) (call : Call) :
    after (calls ++ [call]) = (after calls).receive call := by
  simp [after]

/-! ## What a cycle does to the streaks -/

theorem streaksOf_concat_progress (calls : List Call) :
    streaksOf (calls ++ [.progress]) = streaksOf calls := by
  simp [streaksOf, Text.pieces_concat_mark]

/-- A stall joins the streak under way, or begins one if there is none. -/
theorem streaksOf_concat_stall (calls : List Call) (cause : StallCause) :
    ∃ closed current, calls.rtakeWhile (· ≠ .progress) = current ∧
      streaksOf calls = closed ++ (if current = [] then [] else [current]) ∧
      streaksOf (calls ++ [.stall cause]) = closed ++ [current ++ [.stall cause]] := by
  have plain : Call.stall cause ≠ .progress := Call.noConfusion
  obtain ⟨front, cut, grown⟩ := Text.pieces_concat_of_ne plain calls
  generalize calls.rtakeWhile (· ≠ .progress) = current at cut grown
  refine ⟨front.filter (· ≠ []), current, rfl, ?_, ?_⟩
  · rw [streaksOf, cut, List.filter_append]
    by_cases none : current = [] <;> simp [none]
  · rw [streaksOf, grown, List.filter_append]
    simp

/-- A stalled cycle adds one to the sum over all causes. -/
theorem sum_counts_record (stalls : StallBreakdown) (cause : StallCause) :
    ((stalls.record cause).counts.map Prod.snd).sum =
      (stalls.counts.map Prod.snd).sum + 1 := by
  simp only [counts, StallCause.all, List.map_cons, List.map_nil, List.sum_cons, List.sum_nil,
    count_record]
  cases cause <;> simp <;> omega

/-- All causes together have no stalled cycles exactly if none of them has any. -/
theorem sum_counts_eq_zero_iff (stalls : StallBreakdown) :
    (stalls.counts.map Prod.snd).sum = 0 ↔ ∀ cause, stalls.count cause = 0 := by
  simp only [counts, StallCause.all, List.map_cons, List.map_nil, List.sum_cons, List.sum_nil]
  constructor
  · intro zero cause
    cases cause <;> omega
  · intro unstalled
    simp [unstalled]

/-! ## Counters and streaks -/

/-- The counters of a breakdown are those of the cycles that it has seen. -/
structure Tells (stalls : StallBreakdown) (calls : List Call) : Prop where
  causes : ∀ cause, stalls.count cause = calls.count (.stall cause)
  summed : stalls.totalCycles = (stalls.counts.map Prod.snd).sum
  lengths : Weighs List.length .progress calls stalls.currentStreak stalls.longestStreak
  streaks : stalls.streaks = (streaksOf calls).length
  stalled : stalls.totalCycles = ((streaksOf calls).map List.length).sum

namespace Tells

variable {stalls : StallBreakdown} {calls : List Call}

theorem empty : Tells .empty [] where
  causes cause := by cases cause <;> rfl
  summed := rfl
  lengths := .nil rfl
  streaks := rfl
  stalled := rfl

theorem progress (tells : stalls.Tells calls) :
    stalls.recordProgress.Tells (calls ++ [.progress]) where
  causes cause := by
    rw [List.count_append, List.count_singleton]
    exact tells.causes cause
  summed := tells.summed
  lengths := tells.lengths.concat_mark rfl
  streaks := by rw [streaksOf_concat_progress]; exact tells.streaks
  stalled := by rw [streaksOf_concat_progress]; exact tells.stalled

theorem stall (tells : stalls.Tells calls) (cause : StallCause) :
    (stalls.record cause).Tells (calls ++ [.stall cause]) := by
  obtain ⟨closed, current, isLast, before, behind⟩ := streaksOf_concat_stall calls cause
  have length : current.length = stalls.currentStreak := isLast ▸ tells.lengths.last
  -- Whether a streak begins is read off the length of the last one.
  have begins : stalls.currentStreak = 0 ↔ current = [] := by
    rw [← length, List.length_eq_zero_iff]
  have streaks := tells.streaks
  have stalled := tells.stalled
  rw [before] at streaks stalled
  refine ⟨fun other => ?_, ?_, ?_, ?_, ?_⟩
  · rw [count_record, tells.causes, List.count_append, List.count_singleton]
    by_cases same : other = cause
    · simp [same]
    · simp [same, Ne.symm same]
  · rw [sum_counts_record, ← tells.summed]
    rfl
  · refine tells.lengths.concat_of_ne Call.noConfusion (Nat.le_succ _) ?_
    rw [isLast, List.length_append, length]
    rfl
  · simp only [behind, record, begins, streaks]
    by_cases none : current = [] <;> simp [none]
  · simp only [behind, record, stalled]
    by_cases none : current = [] <;> simp [none, Nat.add_assoc]

end Tells

theorem tells_after (calls : List Call) : (after calls).Tells calls := by
  induction calls using List.reverseRecOn with
  | nil => exact .empty
  | append_singleton calls call ih =>
    rw [after_concat]
    cases call with
    | stall cause => exact ih.stall cause
    | progress => exact ih.progress

/-- After any cycles, each cause has as many stalled cycles as were recorded of it, and all causes
together have the total. The streak under way is the last run of stalls, and the longest streak the
longest run of stalls anywhere. The streaks were counted as well. So the total lies between the
number of streaks and that number times the length of the longest one, and there are no streaks
exactly if nothing was stalled. -/
theorem counters_tell_streaks (calls : List Call) :
    let stalls := after calls
    (∀ cause, stalls.count cause = calls.count (.stall cause)) ∧
    stalls.totalCycles = (stalls.counts.map Prod.snd).sum ∧
    stalls.currentStreak = (calls.rtakeWhile (· ≠ .progress)).length ∧
    IsGreatest {length | ∃ run, run <:+: calls ∧ .progress ∉ run ∧ run.length = length}
      stalls.longestStreak ∧
    stalls.streaks = (streaksOf calls).length ∧
    stalls.streaks ≤ stalls.totalCycles ∧
    stalls.totalCycles ≤ stalls.streaks * stalls.longestStreak ∧
    (stalls.streaks = 0 ↔ ∀ cause, .stall cause ∉ calls) := by
  intro stalls
  have tells : stalls.Tells calls := tells_after calls
  -- The lengths of the streaks are what the bounds are about.
  have positive : ∀ length ∈ (streaksOf calls).map List.length, 1 ≤ length := by
    intro length member
    obtain ⟨streak, listed, rfl⟩ := List.mem_map.1 member
    exact List.length_pos_iff.2 (by simpa using (List.mem_filter.1 listed).2)
  have bounded : ∀ length ∈ (streaksOf calls).map List.length, length ≤ stalls.longestStreak := by
    intro length member
    obtain ⟨streak, listed, rfl⟩ := List.mem_map.1 member
    exact tells.lengths.largest.2 ⟨streak, (List.mem_filter.1 listed).1, rfl⟩
  have fewest := List.length_le_sum_of_one_le _ positive
  have most := List.sum_le_card_nsmul _ _ bounded
  rw [← tells.stalled, List.length_map, ← tells.streaks] at fewest most
  rw [Nat.nsmul_eq_mul] at most
  have none : stalls.streaks = 0 ↔ stalls.totalCycles = 0 := by
    constructor
    · intro none
      rw [none, Nat.zero_mul] at most
      omega
    · omega
  refine ⟨tells.causes, tells.summed, tells.lengths.last.symm, tells.lengths.largest_stretch,
    tells.streaks, fewest, most, ?_⟩
  rw [none, tells.summed, sum_counts_eq_zero_iff]
  simp only [tells.causes, List.count_eq_zero]

-- Two streaks: three stalls of two causes, and one.
example : after [.progress, .stall .memoryLatency, .stall .rawHazard, .stall .rawHazard, .progress,
    .progress, .stall .fuContention] = ⟨#v[1, 2, 0, 0, 1, 0, 0, 0], 4, 3, 2, 1⟩ := by decide

end StallBreakdown

end AccelProfile
