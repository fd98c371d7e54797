import Mathlib.Data.List.Induction
import AccelProfile.DependencyGraph

/-!
# Recordings of a dependency graph

A dependency graph grows by edges and by commits, in whatever order they come in. The
graph after a recording keeps three things in step with the recorded edges: which
instructions were seen, which producers each consumer has, and how deep each instruction
is. An instruction gets deeper by an edge into it only.

The largest depth is that of some instruction that was seen, and zero before there is one.
-/

namespace AccelProfile

namespace DepthTable

/-- The largest depth bounds the depth of every instruction that was seen, is reached by
one of them, and none of them is shallower than a leaf. -/
structure Consistent (table : DepthTable) : Prop where
  /-- No instruction is shallower than a leaf. -/
  leaf_le : ∀ uid, leafDepth ≤ table.level uid
  /-- No instruction is deeper than the largest depth. -/
  bounded : ∀ uid, table.contains uid = true → table.level uid ≤ table.maxDepth
  /-- Some instruction has the largest depth, unless there is none. -/
  attained : table.maxDepth = 0 ∨
    ∃ uid, table.contains uid = true ∧ table.level uid = table.maxDepth

/-- The largest depth of a table without records is zero. -/
theorem consistent_empty : Consistent empty where
  leaf_le _ := Nat.le_refl leafDepth
  bounded _ seen := by simp [contains, record?, empty, FirstSeen.get?,
    FirstSeen.empty] at seen
  attained := Or.inl rfl

/-- An operation keeps the largest depth right if it sees one instruction, makes it no
shallower, and moves the largest depth up to its new level. -/
theorem Consistent.moved {table : DepthTable} (consistent : Consistent table)
    {next : DepthTable} (uid : Uid) (level : Nat) (deepens : table.level uid ≤ level)
    (seen : ∀ other, next.contains other = (decide (other = uid) || table.contains other))
    (levels : ∀ other, next.level other = if other = uid then level else table.level other)
    (largest : next.maxDepth = max table.maxDepth level) : Consistent next := by
  refine ⟨fun other => ?_, fun other known => ?_, ?_⟩
  · have old := consistent.leaf_le other
    by_cases same : other = uid
    · subst same
      rw [levels, if_pos rfl]
      exact Nat.le_trans old deepens
    · rwa [levels, if_neg same]
  · rw [levels, largest]
    by_cases same : other = uid
    · rw [if_pos same]
      exact Nat.le_max_right _ _
    · have before : table.contains other = true := by simpa [seen, same] using known
      rw [if_neg same]
      exact Nat.le_trans (consistent.bounded other before) (Nat.le_max_left _ _)
  · rw [largest]
    by_cases moves : table.maxDepth ≤ level
    · refine Or.inr ⟨uid, by simp [seen], ?_⟩
      rw [levels, if_pos rfl, Nat.max_eq_right moves]
    · -- The instruction that had the largest depth is another one, so it keeps its level.
      rw [Nat.max_eq_left (Nat.le_of_not_le moves)]
      rcases consistent.attained with zero | ⟨other, known, deepest⟩
      · exact Or.inl zero
      · have different : other ≠ uid := by
          rintro rfl
          omega
        refine Or.inr ⟨other, by simp [seen, known], ?_⟩
        rw [levels, if_neg different, deepest]

/-- Seeing an instruction keeps the largest depth right. -/
theorem Consistent.ensure {table : DepthTable} (consistent : Consistent table) (uid : Uid) :
    Consistent (table.ensure uid) :=
  consistent.moved uid (table.level uid) (Nat.le_refl _) (contains_ensure table uid)
    (fun other => by by_cases same : other = uid <;> simp [same]) (maxDepth_ensure table uid)

/-- Committing an instruction keeps the largest depth right. -/
theorem Consistent.commit {table : DepthTable} (consistent : Consistent table) (uid : Uid)
    (opcode : Opcode) (opClass : OpClass) : Consistent (table.commit uid opcode opClass) :=
  consistent.moved uid (table.level uid) (Nat.le_refl _)
    (fun other => contains_commit table uid other opcode opClass)
    (fun other => by by_cases same : other = uid <;> simp [same])
    (maxDepth_commit table uid opcode opClass)

/-- Raising an instruction to a depth of at least one keeps the largest depth right. Where
the instruction is that deep already, the largest depth covers its level. -/
theorem Consistent.raise {table : DepthTable} (consistent : Consistent table) (uid : Uid)
    {candidate : Nat} (positive : leafDepth ≤ candidate) :
    Consistent (table.raise uid candidate).1 := by
  have depth := table.depth_eq_level uid
  have largest : (table.raise uid candidate).1.maxDepth =
      max table.maxDepth (max (table.level uid) candidate) := by
    rw [maxDepth_raise]
    cases known : table.contains uid with
    | true =>
      have covered := consistent.bounded uid known
      rw [known, if_pos rfl] at depth
      rw [depth]
      split <;> omega
    | false =>
      have fresh := level_of_unseen known
      rw [known, if_neg Bool.false_ne_true] at depth
      rw [depth, fresh]
      simp only [leafDepth] at positive ⊢
      split <;> omega
  exact consistent.moved uid _ (Nat.le_max_left _ _)
    (fun other => contains_raise table uid other candidate)
    (fun other => level_raise table uid other candidate) largest

/-- Nothing was seen exactly when the largest depth is zero. -/
theorem Consistent.maxDepth_eq_zero_iff {table : DepthTable} (consistent : Consistent table) :
    table.maxDepth = 0 ↔ table.size = 0 := by
  rw [size_eq_zero_iff]
  constructor
  · intro zero uid
    by_contra known
    rw [Bool.not_eq_false] at known
    have leaf := consistent.leaf_le uid
    have bound := consistent.bounded uid known
    simp only [leafDepth] at leaf
    omega
  · intro unseen
    refine consistent.attained.resolve_right ?_
    rintro ⟨uid, known, _⟩
    rw [unseen uid] at known
    exact Bool.false_ne_true known

end DepthTable

namespace DependencyGraph

/-- One thing that is recorded in a dependency graph. -/
inductive Step
  /-- The consumer has to wait for the producer. -/
  | edge (producer consumer : Uid)
  /-- An instruction commits. -/
  | commit (uid : Uid) (opcode : Opcode) (opClass : OpClass)

/-- Records a step. -/
def recordStep (graph : DependencyGraph) : Step → DependencyGraph
  | .edge producer consumer => (graph.record producer consumer).1
  | .commit uid opcode opClass => graph.commit uid opcode opClass

/-- The graph after a recording. -/
def after (steps : List Step) : DependencyGraph :=
  steps.foldl recordStep .empty

/-- The edge of a step, producer first. -/
def Step.edge? : Step → Option (Uid × Uid)
  | .edge producer consumer => some (producer, consumer)
  | .commit .. => none

/-- The instruction that a step commits. -/
def Step.committed? : Step → Option Uid
  | .edge .. => none
  | .commit uid _ _ => some uid

/-- The recorded edges in recording order, repeats included. -/
def edges (steps : List Step) : List (Uid × Uid) :=
  steps.filterMap Step.edge?

/-- The committed instructions in the order of their commits, repeats included. -/
def commits (steps : List Step) : List Uid :=
  steps.filterMap Step.committed?

theorem after_concat (steps : List Step) (step : Step) :
    after (steps ++ [step]) = (after steps).recordStep step := by
  simp [after]

theorem edges_concat (steps : List Step) (step : Step) :
    edges (steps ++ [step]) = edges steps ++ step.edge?.toList := by
  cases edge : step.edge? <;> simp [edges, edge]

theorem commits_concat (steps : List Step) (step : Step) :
    commits (steps ++ [step]) = commits steps ++ step.committed?.toList := by
  cases committed : step.committed? <;> simp [commits, committed]

/-- A commit moves no level, and an edge moves that of its consumer only. -/
theorem level_recordStep (graph : DependencyGraph) (step : Step) (uid : Uid) :
    (graph.recordStep step).depths.level uid =
      match step with
      | .edge producer consumer =>
        if uid = consumer then
          max (graph.depths.level consumer) (min (graph.depths.level producer + 1) maxHalfWord)
        else graph.depths.level uid
      | .commit .. => graph.depths.level uid := by
  cases step with
  | edge producer consumer => exact level_record graph producer consumer uid
  | commit committed opcode opClass => exact graph.depths.level_commit committed uid opcode opClass

/-- A step that records no edge into an instruction leaves its level alone. -/
theorem level_recordStep_of_untouched (graph : DependencyGraph) (step : Step) {uid : Uid}
    (untouched : ∀ producer, (producer, uid) ∉ step.edge?.toList) :
    (graph.recordStep step).depths.level uid = graph.depths.level uid := by
  rw [level_recordStep]
  cases step with
  | edge producer consumer =>
    have different : uid ≠ consumer := by
      rintro rfl
      exact untouched producer List.mem_cons_self
    exact if_neg different
  | commit => rfl

/-- No step makes an instruction shallower. -/
theorem level_le_recordStep (graph : DependencyGraph) (step : Step) (uid : Uid) :
    graph.depths.level uid ≤ (graph.recordStep step).depths.level uid := by
  rw [level_recordStep]
  cases step with
  | edge producer consumer =>
    simp only
    split
    · next same => exact same ▸ Nat.le_max_left _ _
    · exact Nat.le_refl _
  | commit => exact Nat.le_refl _

/-- No step makes the largest depth smaller. -/
theorem maxDepth_le_recordStep (graph : DependencyGraph) (step : Step) :
    graph.depths.maxDepth ≤ (graph.recordStep step).depths.maxDepth := by
  cases step with
  | edge producer consumer =>
    have seen : graph.depths.maxDepth ≤ (graph.depths.ensure producer).maxDepth := by
      rw [DepthTable.maxDepth_ensure]
      exact Nat.le_max_left _ _
    simp only [recordStep, record, DepthTable.maxDepth_raise]
    split
    · exact seen
    · exact Nat.le_trans seen (Nat.le_max_left _ _)
  | commit uid opcode opClass =>
    simp only [recordStep, commit, DepthTable.maxDepth_commit]
    exact Nat.le_max_left _ _

/-- The depths after a recording are consistent: a step sees instructions and raises one to
a depth above a leaf's. -/
theorem consistent_after (steps : List Step) : (after steps).depths.Consistent := by
  induction steps using List.reverseRecOn with
  | nil => exact DepthTable.consistent_empty
  | append_singleton steps step consistent =>
    rw [after_concat]
    cases step with
    | edge producer consumer =>
      refine (consistent.ensure producer).raise consumer ?_
      have positive : leafDepth ≤ maxHalfWord := by decide
      have above : leafDepth ≤ ((after steps).depths.ensure producer).depth producer + 1 :=
        Nat.le_add_left 1 _
      exact Nat.le_min.2 ⟨above, positive⟩
    | commit uid opcode opClass => exact consistent.commit uid opcode opClass

/-- An instruction was seen exactly if it is an end of a recorded edge or committed. -/
theorem contains_after (steps : List Step) (uid : Uid) :
    (after steps).depths.contains uid = true ↔
      (∃ edge ∈ edges steps, edge.1 = uid ∨ edge.2 = uid) ∨ uid ∈ commits steps := by
  induction steps using List.reverseRecOn with
  | nil => simp [after, empty, DepthTable.contains, DepthTable.record?, DepthTable.empty,
      FirstSeen.get?, FirstSeen.empty, edges, commits]
  | append_singleton steps step ih =>
    rw [after_concat, edges_concat, commits_concat]
    cases step with
    | edge producer consumer =>
      have ends : (∃ edge ∈ edges steps ++ [(producer, consumer)],
          edge.1 = uid ∨ edge.2 = uid) ↔
          (∃ edge ∈ edges steps, edge.1 = uid ∨ edge.2 = uid) ∨
            (producer = uid ∨ consumer = uid) := by
        simp [or_and_right, exists_or]
      simp only [recordStep, contains_record, Bool.or_eq_true, decide_eq_true_eq, ih,
        Step.edge?, Step.committed?, Option.toList, List.append_nil, ends]
      rw [@eq_comm _ producer, @eq_comm _ consumer]
      simp only [or_assoc, or_comm, or_left_comm]
    | commit committed opcode opClass =>
      simp only [recordStep, commit, DepthTable.contains_commit, Bool.or_eq_true,
        decide_eq_true_eq, ih, Step.edge?, Step.committed?, Option.toList, List.append_nil,
        List.mem_append, List.mem_singleton]
      rw [or_comm, or_assoc]

/-- The producers of a consumer are those of the recorded edges into it, in recording order
and with their repeats. -/
theorem producersOf_after (steps : List Step) (consumer : Uid) :
    (after steps).producers.producersOf consumer =
      ((edges steps).filter fun edge => edge.2 = consumer).map Prod.fst := by
  induction steps using List.reverseRecOn with
  | nil => rfl
  | append_singleton steps step ih =>
    rw [after_concat, edges_concat]
    cases step with
    | edge producer other =>
      by_cases same : consumer = other
      · subst same
        simp [recordStep, record, Step.edge?, ih]
      · simp [recordStep, record, Step.edge?, ih, same, Ne.symm same]
    | commit committed opcode opClass => simpa [recordStep, commit, Step.edge?] using ih

/-- A producer of a consumer is one with a recorded edge between them. -/
theorem mem_producersOf_after (steps : List Step) (producer consumer : Uid) :
    producer ∈ (after steps).producers.producersOf consumer ↔
      (producer, consumer) ∈ edges steps := by
  simp [producersOf_after]

/-- Both ends of a recorded edge were seen. -/
theorem contains_of_edge (steps : List Step) {producer consumer : Uid}
    (recorded : (producer, consumer) ∈ edges steps) :
    (after steps).depths.contains producer = true ∧
      (after steps).depths.contains consumer = true :=
  ⟨(contains_after steps producer).2 (Or.inl ⟨_, recorded, Or.inl rfl⟩),
    (contains_after steps consumer).2 (Or.inl ⟨_, recorded, Or.inr rfl⟩)⟩

/-- The depth of an instruction that was seen is its level. -/
theorem depth_of_contains (steps : List Step) {uid : Uid}
    (seen : (after steps).depths.contains uid = true) :
    (after steps).depths.depth uid = (after steps).depths.level uid := by
  rw [DepthTable.depth_eq_level, seen, if_pos rfl]

/-- An instruction that was seen is at least as deep as a leaf. -/
theorem leaf_le_depth (steps : List Step) {uid : Uid}
    (seen : (after steps).depths.contains uid = true) :
    leafDepth ≤ (after steps).depths.depth uid := by
  rw [depth_of_contains steps seen]
  exact (consistent_after steps).leaf_le uid

end DependencyGraph

end AccelProfile
