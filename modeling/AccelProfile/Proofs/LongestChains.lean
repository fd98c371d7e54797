import Mathlib.Data.List.Perm.Subperm
import AccelProfile.Proofs.DependencyOrder
import AccelProfile.Proofs.MarkingRuns

/-!
# The longest chains of a recording

Where edges are recorded in dependency order, the analysis marks the instructions on the
longest chains and no others. Both directions are splices. A longest chain to a marked
instruction goes on along the level edges above it and is a chain of the largest depth. On
a chain of the largest depth every instruction stands at its own level, for a longer way
to it would give a longer chain altogether; so the chain goes up one level at each edge,
and the marking comes down all of it.
-/

namespace AccelProfile

namespace DependencyGraph

/-- A chain of instructions that were seen. Two instructions on a chain are ends of edges, so
this says something about a chain of one instruction only. -/
structure SeenChain (steps : List Step) (chain : List Uid) : Prop where
  linked : Chain (edges steps) chain
  seen : ∀ uid ∈ chain, (after steps).depths.contains uid = true

/-- A chain that ends at an instruction that was seen consists of such instructions. -/
theorem SeenChain.of_last {steps : List Step} {front : List Uid} {uid : Uid}
    (linked : Chain (edges steps) (front ++ [uid]))
    (seen : (after steps).depths.contains uid = true) : SeenChain steps (front ++ [uid]) := by
  refine ⟨linked, ?_⟩
  induction front using List.reverseRecOn generalizing uid with
  | nil =>
    intro other member
    rwa [List.mem_singleton.1 member]
  | append_singleton front previous ih =>
    obtain ⟨toPrevious, step⟩ := chain_concat_iff.1 linked
    intro other member
    rcases List.mem_append.1 member with before | last
    · exact ih toPrevious (contains_of_edge steps step).1 other before
    · rwa [List.mem_singleton.1 last]

/-- The longest chains of instructions that were seen: those as long as the largest depth. -/
structure LongestChain (steps : List Step) (chain : List Uid) : Prop
    extends SeenChain steps chain where
  deepest : chain.length = (after steps).depths.maxDepth

namespace Layered

/-- No chain of instructions that were seen is longer than the largest depth. -/
theorem length_le_maxDepth {steps : List Step} (layered : Layered steps) {chain : List Uid}
    (chained : SeenChain steps chain) : chain.length ≤ (after steps).depths.maxDepth := by
  rcases List.eq_nil_or_concat' chain with rfl | ⟨front, uid, rfl⟩
  · exact Nat.zero_le _
  · have long := layered.length_le_level chained.linked
    have bound := (consistent_after steps).bounded uid (chained.seen uid (by simp))
    rw [List.length_append, List.length_singleton]
    exact Nat.le_trans long bound

/-- There is a chain as long as the largest depth: one that ends at a deepest instruction. -/
theorem exists_longest {steps : List Step} (layered : Layered steps) :
    ∃ chain, LongestChain steps chain := by
  rcases (consistent_after steps).attained with zero | ⟨uid, seen, deepest⟩
  · exact ⟨[], ⟨List.IsChain.nil, by simp⟩, zero.symm⟩
  · obtain ⟨front, linked, counted⟩ := layered.exists_chain uid
    refine ⟨front ++ [uid], SeenChain.of_last linked seen, ?_⟩
    rw [List.length_append, List.length_singleton, counted, deepest]

/-- The largest depth is the largest number of instructions on a chain. -/
theorem maxDepth_isGreatest {steps : List Step} (layered : Layered steps) :
    IsGreatest {count | ∃ chain, SeenChain steps chain ∧ chain.length = count}
      (after steps).depths.maxDepth := by
  obtain ⟨chain, longest⟩ := layered.exists_longest
  refine ⟨⟨chain, longest.toSeenChain, longest.deepest⟩, ?_⟩
  rintro _ ⟨other, chained, rfl⟩
  exact layered.length_le_maxDepth chained

/-- On a longest chain every instruction stands at its own level. A longer way to it, with
the rest of the chain behind, would be a longer chain. -/
theorem level_on_longest {steps : List Step} (layered : Layered steps) {front back : List Uid}
    {uid : Uid} (longest : LongestChain steps (front ++ uid :: back)) :
    (after steps).depths.depth uid = front.length + 1 := by
  obtain ⟨toUid, onwards⟩ := List.isChain_split.1 longest.linked
  obtain ⟨other, linked, counted⟩ := layered.exists_chain uid
  -- The other way to the instruction takes the place of the one on the chain.
  have spliced : Chain (edges steps) (other ++ uid :: back) :=
    List.isChain_split.2 ⟨linked, onwards⟩
  have seenUid : (after steps).depths.contains uid = true := longest.seen uid (by simp)
  have seenOther := (SeenChain.of_last linked seenUid).seen
  have chained : SeenChain steps (other ++ uid :: back) := by
    refine ⟨spliced, fun member listed => ?_⟩
    rcases List.mem_append.1 listed with before | behind
    · exact seenOther member (List.mem_append_left _ before)
    · exact longest.seen member (List.mem_append_right _ behind)
  have bound := layered.length_le_maxDepth chained
  have long := layered.length_le_level toUid
  rw [← longest.deepest] at bound
  simp only [List.length_append, List.length_cons] at bound
  rw [depth_of_contains steps seenUid]
  omega

/-- Level edges lead from every instruction of a longest chain to its end, which is a
deepest instruction. -/
theorem leadsToDeepest {steps : List Step} (layered : Layered steps) {front back : List Uid}
    {uid : Uid} (longest : LongestChain steps (front ++ uid :: back)) :
    (after steps).LeadsToDeepest uid := by
  have level := layered.level_on_longest longest
  -- The induction is on the rest of the chain; the instructions passed go over to its front.
  induction back generalizing front uid with
  | nil =>
    refine ⟨uid, longest.seen uid (by simp), ?_, Relation.ReflTransGen.refl⟩
    rw [level, ← longest.deepest, List.length_append, List.length_singleton]
  | cons next back ih =>
    have further : LongestChain steps ((front ++ [uid]) ++ next :: back) := by
      rwa [List.append_assoc, List.singleton_append]
    have levelNext := layered.level_on_longest further
    obtain ⟨deepest, seen, depth, climb⟩ := ih further levelNext
    have recorded : (uid, next) ∈ edges steps :=
      (List.isChain_append_cons_cons.1 longest.linked).2.1
    have step : (after steps).LevelEdge uid next := by
      refine ⟨(mem_producersOf_after steps uid next).2 recorded, ?_⟩
      rw [level, levelNext, List.length_append, List.length_singleton]
    exact ⟨deepest, seen, depth, climb.head step⟩

/-- A chain as long as the level of its last instruction goes on along the level edges that
lead from there to a deepest instruction, and becomes a longest chain. -/
theorem longest_of_climb {steps : List Step} {front : List Uid} {uid deepest : Uid}
    (seen : (after steps).depths.contains deepest = true)
    (depth : (after steps).depths.depth deepest = (after steps).depths.maxDepth)
    (climb : Relation.ReflTransGen (after steps).LevelEdge uid deepest)
    (linked : Chain (edges steps) (front ++ [uid]))
    (counted : front.length + 1 = (after steps).depths.depth uid) :
    ∃ back, LongestChain steps (front ++ uid :: back) := by
  induction climb using Relation.ReflTransGen.head_induction_on generalizing front with
  | refl =>
    refine ⟨[], SeenChain.of_last linked seen, ?_⟩
    rw [List.length_append, List.length_singleton, counted, depth]
  | @head uid next step _ ih =>
    obtain ⟨producer, levels⟩ := step
    have recorded := (mem_producersOf_after steps uid next).1 producer
    have onwards := chain_concat_iff.2 ⟨linked, recorded⟩
    obtain ⟨back, longest⟩ := ih onwards (by simp [counted, levels])
    rw [List.append_assoc, List.singleton_append] at longest
    exact ⟨next :: back, longest⟩

/-- The marked instructions are those on longest chains. -/
theorem mem_mark_iff {steps : List Step} (layered : Layered steps) (uid : Uid) :
    uid ∈ CriticalPath.mark (after steps) ↔ ∃ chain, LongestChain steps chain ∧ uid ∈ chain := by
  rw [CriticalPath.mem_mark_iff]
  constructor
  · intro leads
    have seenUid := CriticalPath.contains_of_leadsToDeepest steps leads
    obtain ⟨deepest, seen, depth, climb⟩ := leads
    obtain ⟨front, linked, counted⟩ := layered.exists_chain uid
    rw [← depth_of_contains steps seenUid] at counted
    obtain ⟨back, longest⟩ := longest_of_climb seen depth climb linked counted
    exact ⟨_, longest, by simp⟩
  · rintro ⟨chain, longest, member⟩
    obtain ⟨front, back, rfl⟩ := List.append_of_mem member
    exact layered.leadsToDeepest longest

/-- The largest depth is one if instructions were committed and no edge was recorded: a
chain cannot go on. -/
theorem maxDepth_of_commits {steps : List Step} (layered : Layered steps)
    (noEdge : edges steps = []) (committed : commits steps ≠ []) :
    (after steps).depths.maxDepth = 1 := by
  obtain ⟨uid, member⟩ := List.exists_mem_of_ne_nil _ committed
  have seen : (after steps).depths.contains uid = true :=
    (contains_after steps uid).2 (Or.inr member)
  have single : SeenChain steps ([] ++ [uid]) :=
    SeenChain.of_last (List.IsChain.singleton uid) seen
  have positive : 1 ≤ (after steps).depths.maxDepth := layered.length_le_maxDepth single
  obtain ⟨chain, longest⟩ := layered.exists_longest
  have bound := layered.ordered.chain_length_le longest.linked
  rw [noEdge, longest.deepest, List.length_nil] at bound
  exact Nat.le_antisymm bound positive

/-- A marked instruction stands at every level from one to the largest depth: those of one
longest chain stand at all of them. -/
theorem exists_marked_at {steps : List Step} (layered : Layered steps) {level : Nat}
    (positive : 1 ≤ level) (bounded : level ≤ (after steps).depths.maxDepth) :
    ∃ uid ∈ CriticalPath.mark (after steps), (after steps).depths.depth uid = level := by
  obtain ⟨chain, longest⟩ := layered.exists_longest
  have inside : level - 1 < chain.length := by
    rw [longest.deepest]
    omega
  have member : chain[level - 1] ∈ chain := List.getElem_mem inside
  have split : chain.take (level - 1) ++ chain[level - 1] :: chain.drop (level - 1 + 1) = chain := by
    rw [← List.drop_eq_getElem_cons inside, List.take_append_drop]
  have stands := layered.level_on_longest (split.symm ▸ longest)
  rw [List.length_take_of_le (Nat.le_of_lt inside), Nat.sub_add_cancel positive] at stands
  exact ⟨chain[level - 1], (layered.mem_mark_iff _).2 ⟨chain, longest, member⟩, stands⟩

/-- At least as many instructions are marked as the largest depth says: those of one longest
chain are distinct. -/
theorem maxDepth_le_length_mark {steps : List Step} (layered : Layered steps) :
    (after steps).depths.maxDepth ≤ (CriticalPath.mark (after steps)).length := by
  obtain ⟨chain, longest⟩ := layered.exists_longest
  have marked : chain ⊆ CriticalPath.mark (after steps) := by
    intro uid member
    exact (layered.mem_mark_iff uid).2 ⟨chain, longest, member⟩
  rw [← longest.deepest]
  exact (List.subperm_of_subset (layered.nodup longest.linked) marked).length_le

end Layered

end DependencyGraph

namespace CriticalPath

open DependencyGraph (Step Layered SeenChain after edges commits consistent_after)

/-- An analysis of a recording that finds the longest chains, all of them. -/
structure FindsLongestChains (path : CriticalPath) (steps : List Step) : Prop where
  /-- The length is the number of instructions on a longest chain. -/
  length : IsGreatest {count | ∃ chain, SeenChain steps chain ∧ chain.length = count} path.length
  /-- Without edges the length is one as soon as an instruction was committed. -/
  commitsOnly : edges steps = [] → commits steps ≠ [] → path.length = 1
  /-- The length is zero exactly if nothing was seen. -/
  nothing : path.length = 0 ↔ (after steps).depths.size = 0
  /-- The members are the instructions on chains of that length. -/
  members : ∀ uid, uid ∈ path.members ↔
    ∃ chain, SeenChain steps chain ∧ chain.length = path.length ∧ uid ∈ chain
  /-- A member stands at every level. -/
  levels : ∀ level, 1 ≤ level → level ≤ path.length →
    ∃ uid ∈ path.members, (after steps).depths.depth uid = level
  /-- There are at least as many members as levels. -/
  covers : path.length ≤ path.instructionCount

/-- The analysis of a recording in dependency order finds the longest chains. -/
theorem ofGraph_finds {steps : List Step} (layered : Layered steps) :
    (ofGraph (after steps)).FindsLongestChains steps where
  length := layered.maxDepth_isGreatest
  commitsOnly := layered.maxDepth_of_commits
  nothing := (consistent_after steps).maxDepth_eq_zero_iff
  members uid := by
    refine (layered.mem_mark_iff uid).trans (exists_congr fun chain => ?_)
    constructor
    · rintro ⟨⟨chained, deepest⟩, member⟩
      exact ⟨chained, deepest, member⟩
    · rintro ⟨chained, deepest, member⟩
      exact ⟨⟨chained, deepest⟩, member⟩
  levels _ := layered.exists_marked_at
  covers := layered.maxDepth_le_length_mark

end CriticalPath

namespace Engine

open DependencyGraph (DependencyOrdered Chain edges)

/-- After a run that recorded its edges in dependency order, with commits and all other
calls anywhere between them, an analysis finds the longest chains of the recorded edges as
long as none of them is too long for a depth. The summary takes over the length of the
chains and the number of the members. -/
theorem analyse_finds_longest_chains (config : Config) (calls : List Call)
    (ordered : DependencyOrdered (edges (recording calls)))
    (short : ∀ chain, Chain (edges (recording calls)) chain → chain.length ≤ maxHalfWord) :
    let engine := (after config calls).analyse
    ∃ path, engine.path = some path ∧
      engine.summary.dataflow.pathLength = path.length ∧
      engine.summary.dataflow.pathInstructions = path.instructionCount ∧
      path.FindsLongestChains (recording calls) := by
  intro engine
  have finds := CriticalPath.ofGraph_finds ⟨ordered, short⟩
  rw [← graph_after config calls] at finds
  exact ⟨_, rfl, rfl, rfl, finds⟩

/-- Two tied chains from instruction 1 to instruction 4, a shorter one from 5 to 4, and an
instruction on its own, with commits in between. -/
def tiedRun : List Call :=
  [.event (.dependency ⟨⟨1⟩, ⟨2⟩, .trueOnly⟩), .event (.commit ⟨1⟩ ⟨7⟩ true false),
    .event (.dependency ⟨⟨1⟩, ⟨3⟩, .trueOnly⟩), .event (.dependency ⟨⟨5⟩, ⟨4⟩, .trueOnly⟩),
    .event (.dependency ⟨⟨2⟩, ⟨4⟩, .trueOnly⟩), .event (.commit ⟨9⟩ ⟨8⟩ false false),
    .event (.dependency ⟨⟨3⟩, ⟨4⟩, .trueOnly⟩), .event (.commit ⟨4⟩ ⟨8⟩ false true)]

/-- The run with tied chains is in dependency order, its chains are short, and the analysis
finds the longest ones. -/
theorem tied_chains_found :
    DependencyOrdered (edges (recording tiedRun)) ∧
    (∀ chain, Chain (edges (recording tiedRun)) chain → chain.length ≤ maxHalfWord) ∧
    ∃ path, (after .standard tiedRun).analyse.path = some path ∧
      (after .standard tiedRun).analyse.summary.dataflow.pathLength = path.length ∧
      (after .standard tiedRun).analyse.summary.dataflow.pathInstructions =
        path.instructionCount ∧
      path.FindsLongestChains (recording tiedRun) := by
  have ordered : DependencyOrdered (edges (recording tiedRun)) := ⟨by decide, by decide⟩
  have short (chain : List Uid) (linked : Chain (edges (recording tiedRun)) chain) :
      chain.length ≤ maxHalfWord := by
    have bound := ordered.chain_length_le linked
    exact Nat.le_trans bound (by decide)
  exact ⟨ordered, short, analyse_finds_longest_chains .standard tiedRun ordered short⟩

end Engine

end AccelProfile
