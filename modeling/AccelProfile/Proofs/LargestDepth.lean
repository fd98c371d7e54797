import AccelProfile.Proofs.EngineCalls

/-!
# The largest depth in two places

The largest depth of a run is kept in the depth table and once more in the summary. A
commit copies it over. An edge does not: it tells the new largest depth if raising its
consumer moved it, and the summary takes over what it is told. Seeing the producer of the
edge can move the largest depth as well, and nobody is told of that.

Nothing is lost by it. Only the first instruction of a run moves the largest depth by being
seen, and then the consumer of the edge is raised above it. So an edge tells the largest
depth exactly when it moved it, and the two places agree after every call.
-/

namespace AccelProfile

namespace DepthTable

/-- No instruction is deeper than the largest depth, seen or not. -/
theorem Consistent.depth_le {table : DepthTable} (consistent : Consistent table) (uid : Uid) :
    table.depth uid ≤ table.maxDepth := by
  rw [depth_eq_level]
  split
  · next seen => exact consistent.bounded uid seen
  · exact Nat.zero_le _

/-- Raising an instruction tells the candidate exactly when it is above the largest depth:
then it is above the depth of the instruction as well. -/
theorem Consistent.told_raise {table : DepthTable} (consistent : Consistent table) (uid : Uid)
    (candidate : Nat) :
    (table.raise uid candidate).2 =
      if table.maxDepth < candidate then some candidate else none := by
  have covered := consistent.depth_le uid
  by_cases moves : table.maxDepth < candidate
  · have wins : ¬ candidate ≤ table.depth uid := by omega
    simp only [DepthTable.raise, wins, moves, if_true, if_false]
  · by_cases loses : candidate ≤ table.depth uid <;>
      simp only [DepthTable.raise, loses, moves, if_true, if_false]

/-- Raising an instruction moves the largest depth up to the candidate. -/
theorem Consistent.maxDepth_raise_eq {table : DepthTable} (consistent : Consistent table)
    (uid : Uid) (candidate : Nat) :
    (table.raise uid candidate).1.maxDepth = max table.maxDepth candidate := by
  have covered := consistent.depth_le uid
  rw [maxDepth_raise]
  split
  · next loses => exact (Nat.max_eq_left (Nat.le_trans loses covered)).symm
  · rfl

/-- An instruction that reaches above the largest depth was not seen, and is a leaf. -/
theorem Consistent.level_eq_leaf {table : DepthTable} (consistent : Consistent table) {uid : Uid}
    (above : table.maxDepth < table.level uid) : table.level uid = leafDepth := by
  cases known : table.record? uid with
  | none => simp [level, known, InstructionRecord.leaf]
  | some record =>
    have seen : table.contains uid = true := by simp [contains, known]
    have covered := consistent.bounded uid seen
    omega

end DepthTable

namespace DependencyGraph

/-- An edge tells the largest depth exactly when it moved it, and then tells the new one.

The producer is seen first. Where that alone moves the largest depth, it is a leaf and the
consumer is raised to two, which is told. Elsewhere only raising the consumer can move it. -/
theorem told_record_iff {graph : DependencyGraph} (consistent : graph.depths.Consistent)
    (producer consumer : Uid) (told : Nat) :
    (graph.record producer consumer).2 = some told ↔
      (graph.record producer consumer).1.depths.maxDepth ≠ graph.depths.maxDepth ∧
        told = (graph.record producer consumer).1.depths.maxDepth := by
  have seen := consistent.ensure producer
  have read : (graph.depths.ensure producer).depth producer = graph.depths.level producer := by
    simp [DepthTable.depth_eq_level]
  have seenLargest := graph.depths.maxDepth_ensure producer
  simp only [record, read, seen.told_raise, seen.maxDepth_raise_eq, seenLargest]
  have leaf (above : graph.depths.maxDepth < graph.depths.level producer) :
      graph.depths.level producer = leafDepth := consistent.level_eq_leaf above
  have room : leafDepth < maxHalfWord := by decide
  simp only [leafDepth] at leaf room
  generalize graph.depths.level producer = level at leaf ⊢
  generalize graph.depths.maxDepth = largest at leaf ⊢
  generalize maxHalfWord = limit at room ⊢
  split
  · next moves =>
    simp only [Option.some.injEq]
    omega
  · next stays =>
    simp only [reduceCtorEq, false_iff, not_and]
    intro moved
    omega

end DependencyGraph

namespace Engine

/-- The depths of a run are consistent. -/
theorem consistent_after (config : Config) (calls : List Call) :
    (after config calls).graph.depths.Consistent := by
  rw [graph_after]
  exact DependencyGraph.consistent_after (recording calls)

/-- A call leaves the two largest depths equal: it moves neither, or copies one, or takes
over what an edge told. -/
theorem maxDepth_receive {engine : Engine} (consistent : engine.graph.depths.Consistent)
    (agree : engine.summary.dataflow.maxDepth = engine.graph.depths.maxDepth) (call : Call) :
    (engine.receive call).summary.dataflow.maxDepth =
      (engine.receive call).graph.depths.maxDepth := by
  cases call with
  | event event =>
    cases event with
    | dependency edge =>
      have told := DependencyGraph.told_record_iff consistent edge.producer edge.consumer
      change (engine.graph.record edge.producer edge.consumer).2.getD
          engine.summary.dataflow.maxDepth = _
      cases moved : (engine.graph.record edge.producer edge.consumer).2 with
      | some largest => exact ((told largest).1 moved).2
      | none =>
        rw [Option.getD_none, agree]
        by_contra different
        have said := (told _).2 ⟨fun same => different same.symm, rfl⟩
        simp [moved] at said
    | commit => rfl
    | cycleEnd cycle sample =>
      cases sample <;> exact agree
    | _ => exact agree
  | _ => exact agree

/-- The summary of a run has the largest depth of its depth table. -/
theorem summary_maxDepth_after (config : Config) (calls : List Call) :
    (after config calls).summary.dataflow.maxDepth =
      (after config calls).graph.depths.maxDepth := by
  induction calls using List.reverseRecOn with
  | nil => rfl
  | append_singleton calls call agree =>
    have step : after config (calls ++ [call]) = (after config calls).receive call := by
      simp [after]
    rw [step]
    exact maxDepth_receive (consistent_after config calls) agree call

/-- After every run no instruction that was seen is shallower than a leaf. The largest depth
is the greatest depth of the instructions that were seen, and zero as long as there are
none; the summary has the same one. Every edge on the way told the largest depth exactly
when it moved it, and then told the new one. -/
theorem largest_depth_kept (config : Config) (calls : List Call) :
    let depths := (after config calls).graph.depths
    (∀ uid, depths.contains uid = true → leafDepth ≤ depths.depth uid) ∧
    (∀ uid, depths.contains uid = true → depths.depth uid ≤ depths.maxDepth) ∧
    ((∀ uid, depths.contains uid = false) → depths.maxDepth = 0) ∧
    ((∃ uid, depths.contains uid = true) →
      ∃ uid, depths.contains uid = true ∧ depths.depth uid = depths.maxDepth) ∧
    (after config calls).summary.dataflow.maxDepth = depths.maxDepth ∧
    ∀ before edge behind, calls = before ++ .event (.dependency edge) :: behind →
      let graph := (after config before).graph
      let recorded := graph.record edge.producer edge.consumer
      ∀ told, recorded.2 = some told ↔
        recorded.1.depths.maxDepth ≠ graph.depths.maxDepth ∧
          told = recorded.1.depths.maxDepth := by
  intro depths
  have consistent : depths.Consistent := consistent_after config calls
  have depth {uid : Uid} (seen : depths.contains uid = true) :
      depths.depth uid = depths.level uid := by
    rw [depths.depth_eq_level, if_pos seen]
  refine ⟨?_, fun uid _ => consistent.depth_le uid, ?_, ?_,
    summary_maxDepth_after config calls, ?_⟩
  · intro uid seen
    rw [depth seen]
    exact consistent.leaf_le uid
  · intro unseen
    exact consistent.maxDepth_eq_zero_iff.2 (depths.size_eq_zero_iff.2 unseen)
  · rintro ⟨uid, seen⟩
    rcases consistent.attained with zero | ⟨deepest, known, level⟩
    · have none := depths.size_eq_zero_iff.1 (consistent.maxDepth_eq_zero_iff.1 zero)
      rw [none uid] at seen
      exact absurd seen Bool.false_ne_true
    · exact ⟨deepest, known, (depth known).trans level⟩
  · intro before edge behind _ graph recorded
    exact DependencyGraph.told_record_iff (consistent_after config before) _ _

end Engine

end AccelProfile
