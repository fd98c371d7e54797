import AccelProfile.Proofs.DependencyOrder
import AccelProfile.Proofs.MarkingRuns

/-!
# Stranded members

A marking goes down from an instruction to its producers one level below. It comes down to
a leaf as long as there is such a producer, and there need not be one. An edge raises its
consumer above its producer, so just after it was recorded the producer stands one level
below. But nothing is passed on to the consumers of a producer that gets deeper later: a
late edge into the producer lifts it to the level of its consumer or above, and the
consumer is stranded. The graph need not have a cycle for that. An edge from 1 to 2 and a
late one from 0 to 1 leave both 1 and 2 at depth two.

Stranded members are all that can be wrong: the members come down to leaves exactly if
none of them is stranded, and a stranded instruction always has a producer that got deeper
no earlier than by the edge between them, or is as deep as depths go.
-/

namespace AccelProfile

namespace DependencyGraph

/-- Level edges lead down from an instruction to one that is as deep as a leaf. -/
def ComesDown (graph : DependencyGraph) (uid : Uid) : Prop :=
  ∃ leaf, graph.depths.depth leaf = leafDepth ∧ Relation.ReflTransGen graph.LevelEdge leaf uid

/-- An instruction deeper than a leaf without a producer one level below. -/
def Stranded (graph : DependencyGraph) (uid : Uid) : Prop :=
  leafDepth < graph.depths.depth uid ∧
    ∀ producer ∈ graph.producers.producersOf uid,
      graph.depths.depth producer + 1 ≠ graph.depths.depth uid

/-- No stranded instruction comes down. -/
theorem Stranded.not_comesDown {graph : DependencyGraph} {uid : Uid}
    (stranded : graph.Stranded uid) : ¬ graph.ComesDown uid := by
  rintro ⟨leaf, depth, climb⟩
  obtain ⟨deep, apart⟩ := stranded
  cases climb with
  | refl => exact Nat.lt_irrefl leafDepth (depth ▸ deep)
  | tail _ step => exact apart _ step.1 step.2

/-- An edge of a recording that raised its consumer to the level that it has. -/
structure RaisedBy (steps : List Step) (producer uid : Uid) (behind : List (Uid × Uid)) :
    Prop where
  /-- The edge was recorded, and these others behind it. -/
  recorded : ∃ before, edges steps = before ++ (producer, uid) :: behind
  /-- The producer reaches up to the consumer. -/
  reaches : (after steps).depths.level uid ≤ (after steps).depths.level producer + 1
  /-- The consumer stands just above the producer if no edge raised the producer since. -/
  settled : (∀ other, (other, producer) ∉ (producer, uid) :: behind) →
    (after steps).depths.level uid = min ((after steps).depths.level producer + 1) maxHalfWord

/-- A step that leaves the level of the consumer alone leaves it raised by the same edge. -/
theorem RaisedBy.concat {steps : List Step} {producer uid : Uid} {behind : List (Uid × Uid)}
    (raised : RaisedBy steps producer uid behind) (step : Step)
    (kept : ((after steps).recordStep step).depths.level uid = (after steps).depths.level uid) :
    RaisedBy (steps ++ [step]) producer uid (behind ++ step.edge?.toList) := by
  obtain ⟨⟨before, recorded⟩, reaches, settled⟩ := raised
  refine ⟨⟨before, ?_⟩, ?_, fun untouched => ?_⟩
  · rw [edges_concat, recorded, List.append_assoc, List.cons_append]
  · have grows := level_le_recordStep (after steps) step producer
    rw [after_concat, kept]
    exact Nat.le_trans reaches (Nat.succ_le_succ grows)
  · simp only [List.mem_cons, List.mem_append, not_or] at untouched
    have producerKept : ((after steps).recordStep step).depths.level producer =
        (after steps).depths.level producer :=
      level_recordStep_of_untouched (after steps) step fun other => (untouched other).2.2
    rw [after_concat, kept, producerKept]
    refine settled fun other member => ?_
    rcases List.mem_cons.1 member with same | later
    · exact (untouched other).1 same
    · exact (untouched other).2.1 later

/-- An instruction deeper than a leaf was raised to its level by an edge. -/
theorem exists_raisedBy (steps : List Step) (uid : Uid)
    (deep : leafDepth < (after steps).depths.level uid) :
    ∃ producer behind, RaisedBy steps producer uid behind := by
  induction steps using List.reverseRecOn with
  | nil => exact absurd deep (Nat.lt_irrefl leafDepth)
  | append_singleton steps step ih =>
    rw [after_concat] at deep
    -- Either the level was there before, or the last step is the edge that raised it.
    by_cases kept : ((after steps).recordStep step).depths.level uid =
        (after steps).depths.level uid
    · rw [kept] at deep
      obtain ⟨producer, behind, raised⟩ := ih deep
      exact ⟨producer, _, raised.concat step kept⟩
    · have levels := level_recordStep (after steps) step uid
      cases step with
      | commit => exact absurd levels kept
      | edge producer consumer =>
        obtain rfl : uid = consumer := by
          by_contra different
          exact kept (levels.trans (if_neg different))
        simp only [if_true] at levels
        have grows := level_le_recordStep (after steps) (.edge producer uid) producer
        refine ⟨producer, [], ⟨edges steps, edges_concat steps _⟩, ?_, fun untouched => ?_⟩
        · rw [after_concat]
          omega
        · have producerKept :=
            level_recordStep_of_untouched (after steps) (.edge producer uid) untouched
          rw [after_concat, producerKept]
          omega

/-- A stranded instruction was seen: the others have depth zero. -/
theorem Stranded.contains {graph : DependencyGraph} {uid : Uid}
    (stranded : graph.Stranded uid) : graph.depths.contains uid = true := by
  by_contra unseen
  have deep := stranded.1
  rw [graph.depths.depth_eq_level, if_neg unseen] at deep
  exact Nat.not_lt_zero leafDepth deep

/-- A stranded instruction has a producer at its own level or above. That producer got
deeper no earlier than by the edge between them, unless the instruction is as deep as
depths go. -/
theorem Stranded.outgrown {steps : List Step} {uid : Uid}
    (stranded : (after steps).Stranded uid) :
    ∃ producer before behind, edges steps = before ++ (producer, uid) :: behind ∧
      (after steps).depths.depth uid ≤ (after steps).depths.depth producer ∧
      ((∃ other, (other, producer) ∈ (producer, uid) :: behind) ∨
        (after steps).depths.depth uid = maxHalfWord) := by
  have level := depth_of_contains steps stranded.contains
  obtain ⟨deep, apart⟩ := stranded
  rw [level] at deep ⊢
  obtain ⟨producer, behind, ⟨before, recorded⟩, reaches, settled⟩ := exists_raisedBy steps uid deep
  have member : (producer, uid) ∈ edges steps := by simp [recorded]
  have producerLevel := depth_of_contains steps (contains_of_edge steps member).1
  have notBelow := apart producer ((mem_producersOf_after steps producer uid).2 member)
  rw [level, producerLevel] at notBelow
  have above : (after steps).depths.level uid ≤ (after steps).depths.level producer := by omega
  refine ⟨producer, before, behind, recorded, producerLevel ▸ above, ?_⟩
  by_cases untouched : ∀ other, (other, producer) ∉ (producer, uid) :: behind
  · refine Or.inr ?_
    have stands := settled untouched
    generalize maxHalfWord = limit at stands ⊢
    omega
  · refine Or.inl ?_
    push Not at untouched
    exact untouched

/-- Nothing is stranded by edges in dependency order as long as no depth reaches the largest
32-bit word. -/
theorem DependencyOrdered.not_stranded {steps : List Step}
    (ordered : DependencyOrdered (edges steps))
    (fits : (after steps).depths.maxDepth < maxHalfWord) (uid : Uid) :
    ¬ (after steps).Stranded uid := by
  intro stranded
  obtain ⟨producer, before, behind, recorded, _, late | saturated⟩ := stranded.outgrown
  · obtain ⟨other, member⟩ := late
    have noLoop := ordered.noLoop (producer, uid) (by simp [recorded])
    have onwards := (List.pairwise_append.1 (recorded ▸ ordered.intoFirst)).2.1
    rcases List.mem_cons.1 member with same | later
    · exact noLoop (congrArg Prod.snd same)
    · exact (List.pairwise_cons.1 onwards).1 (other, producer) later rfl
  · have seen := stranded.contains
    have bound := (consistent_after steps).bounded uid seen
    rw [← depth_of_contains steps seen, saturated] at bound
    exact Nat.not_lt_of_le bound fits

end DependencyGraph

namespace CriticalPath

open DependencyGraph (Step after)

/-- What is one level below a marked instruction is marked. -/
theorem mem_mark_of_levelEdge (steps : List Step) {producer consumer : Uid}
    (step : (after steps).LevelEdge producer consumer) (marked : consumer ∈ mark (after steps)) :
    producer ∈ mark (after steps) := by
  obtain ⟨deepest, seen, depth, climb⟩ := (mem_mark_iff steps consumer).1 marked
  exact (mem_mark_iff steps producer).2 ⟨deepest, seen, depth, climb.head step⟩

/-- The marked instructions come down to leaves exactly if none of them is stranded. -/
theorem comesDown_iff (steps : List Step) :
    (∀ uid ∈ mark (after steps), (after steps).ComesDown uid) ↔
      ∀ uid ∈ mark (after steps), ¬ (after steps).Stranded uid := by
  constructor
  · intro down uid marked stranded
    exact stranded.not_comesDown (down uid marked)
  · intro notStranded uid marked
    -- Each step down stays among the marked instructions and lowers the depth.
    induction depth : (after steps).depths.depth uid using Nat.strongRecOn generalizing uid with
    | ind level ih =>
      have seen := contains_of_leadsToDeepest steps ((mem_mark_iff steps uid).1 marked)
      have leaf := DependencyGraph.leaf_le_depth steps seen
      rcases Nat.eq_or_lt_of_le leaf with same | deep
      · exact ⟨uid, same.symm, Relation.ReflTransGen.refl⟩
      · have stands := notStranded uid marked
        simp only [DependencyGraph.Stranded, deep, true_and] at stands
        push Not at stands
        obtain ⟨producer, recorded, below⟩ := stands
        have step : (after steps).LevelEdge producer uid := ⟨recorded, below⟩
        have lower : (after steps).depths.depth producer < level := by omega
        obtain ⟨bottom, isLeaf, climb⟩ := ih _ lower producer
          (mem_mark_of_levelEdge steps step marked) rfl
        exact ⟨bottom, isLeaf, climb.tail step⟩

end CriticalPath

namespace Engine

open DependencyGraph (DependencyOrdered)

/-- After any run, with a cycle among the edges or without, the members of the analysis come
down to leaves, by steps to recorded producers exactly one level below, if and only if none
of them is stranded. A stranded instruction has a producer at its own level or above, and
an edge into that producer was recorded no earlier than the edge between the two, unless
the instruction is as deep as depths go. So nothing is stranded by edges in dependency
order, and then all members come down. -/
theorem members_come_down_iff (config : Config) (calls : List Call) :
    let engine := (after config calls).analyse
    let graph := engine.graph
    let edges := DependencyGraph.edges (recording calls)
    ∃ path, engine.path = some path ∧
      ((∀ uid ∈ path.members, graph.ComesDown uid) ↔
        ∀ uid ∈ path.members, ¬ graph.Stranded uid) ∧
      (∀ uid, graph.Stranded uid →
        ∃ producer before behind, edges = before ++ (producer, uid) :: behind ∧
          graph.depths.depth uid ≤ graph.depths.depth producer ∧
          ((∃ other, (other, producer) ∈ (producer, uid) :: behind) ∨
            graph.depths.depth uid = maxHalfWord)) ∧
      (DependencyOrdered edges → graph.depths.maxDepth < maxHalfWord →
        ∀ uid ∈ path.members, graph.ComesDown uid) := by
  intro engine graph edges
  have recorded : graph = DependencyGraph.after (recording calls) := graph_after config calls
  have comesDown := CriticalPath.comesDown_iff (recording calls)
  refine ⟨CriticalPath.ofGraph graph, rfl, ?_, ?_, ?_⟩
  · rw [recorded]
    exact comesDown
  · rw [recorded]
    exact fun uid stranded => stranded.outgrown
  · rw [recorded]
    exact fun ordered fits => comesDown.2 fun uid _ => ordered.not_stranded fits uid

/-- An edge from 1 to 2, and a late one into 1. -/
def lateRun : List Call :=
  [.event (.dependency ⟨⟨1⟩, ⟨2⟩, .trueOnly⟩), .event (.dependency ⟨⟨0⟩, ⟨1⟩, .trueOnly⟩)]

/-- Not all members come down to leaves after every run without a cycle: the late edge lifts
instruction 1 to the level of instruction 2, which is a member and has no other producer. -/
theorem late_edge_strands_member :
    ¬ ∀ (config : Config) (calls : List Call),
      (after config calls).graph.producers.isAcyclic = true →
        ∀ path, (after config calls).analyse.path = some path →
          ∀ uid ∈ path.members, (after config calls).analyse.graph.ComesDown uid := by
  intro allComeDown
  have acyclic : (after .standard lateRun).graph.producers.isAcyclic = true := by decide
  have stranded : (after .standard lateRun).analyse.graph.Stranded ⟨2⟩ :=
    ⟨by decide, by decide⟩
  have marked : (⟨2⟩ : Uid) ∈ CriticalPath.mark (after .standard lateRun).graph := by
    rw [graph_after, CriticalPath.mem_mark_iff]
    exact ⟨⟨2⟩, by decide, by decide, Relation.ReflTransGen.refl⟩
  exact stranded.not_comesDown (allComeDown .standard lateRun acyclic _ rfl ⟨2⟩ marked)

end Engine

end AccelProfile
