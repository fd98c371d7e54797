import Mathlib.Data.List.Chain
import Mathlib.Order.Bounds.Basic
import AccelProfile.Proofs.EngineCalls

/-!
# Depths as recorded walks

A recorded walk takes edges from a recording at increasing positions, each of which starts
where the one before it ends. It may pass an instruction more than once, and a cycle or an
edge from an instruction to itself is as good as any other edge; what it cannot do is use
an edge before it was recorded. The longest recorded walk to an instruction is therefore
what a table of depths can know that only ever pushes a depth along the edge that is being
recorded.

The level of every instruction is one more than the length of the longest recorded walk to
it, up to the largest depth that fits. One step proves it: a walk in a recording with one
more edge is a walk without that edge, or a walk to the producer with the edge behind it.
-/

namespace AccelProfile

/-- A walk to a target through recorded edges. The edges keep the order in which they were
recorded; the walk without edges ends at every target. -/
structure RecordedWalk (edges : List (Uid × Uid)) (target : Uid) (walk : List (Uid × Uid)) :
    Prop where
  inOrder : walk.Sublist edges
  linked : walk.IsChain fun earlier later => earlier.2 = later.1
  arrives : ∀ last ∈ walk.getLast?, last.2 = target

/-- The largest number of edges of a recorded walk to a target. -/
def LongestWalk (edges : List (Uid × Uid)) (target : Uid) (length : Nat) : Prop :=
  IsGreatest {count | ∃ walk, RecordedWalk edges target walk ∧ walk.length = count} length

namespace RecordedWalk

/-- The walk without edges ends everywhere. -/
theorem nil (edges : List (Uid × Uid)) (target : Uid) : RecordedWalk edges target [] where
  inOrder := List.nil_sublist edges
  linked := List.IsChain.nil
  arrives _ last := by simp at last

/-- A walk stays a walk when more edges are recorded. -/
theorem weaken {edges : List (Uid × Uid)} {target : Uid} {walk : List (Uid × Uid)}
    (recorded : RecordedWalk edges target walk) (edge : Uid × Uid) :
    RecordedWalk (edges ++ [edge]) target walk where
  inOrder := recorded.inOrder.trans (List.sublist_append_left edges [edge])
  linked := recorded.linked
  arrives := recorded.arrives

/-- A walk to the producer of a new edge goes on along that edge. -/
theorem concat {edges : List (Uid × Uid)} {producer : Uid} {walk : List (Uid × Uid)}
    (recorded : RecordedWalk edges producer walk) (consumer : Uid) :
    RecordedWalk (edges ++ [(producer, consumer)]) consumer (walk ++ [(producer, consumer)]) where
  inOrder := recorded.inOrder.append (List.Sublist.refl _)
  linked := by
    refine recorded.linked.append (List.IsChain.singleton _) ?_
    intro last member next first
    obtain rfl : (producer, consumer) = next := by simpa using first
    exact recorded.arrives last member
  arrives last member := by
    obtain rfl : (producer, consumer) = last := by simpa using member
    rfl

/-- A walk in a recording with one more edge does without that edge, or goes along it at
the end and reaches its producer before. -/
theorem of_concat {edges : List (Uid × Uid)} {producer consumer target : Uid}
    {walk : List (Uid × Uid)}
    (recorded : RecordedWalk (edges ++ [(producer, consumer)]) target walk) :
    RecordedWalk edges target walk ∨
      target = consumer ∧
        ∃ front, walk = front ++ [(producer, consumer)] ∧ RecordedWalk edges producer front := by
  obtain ⟨front, back, rfl, frontInOrder, backInOrder⟩ :=
    List.sublist_append_iff.1 recorded.inOrder
  cases backInOrder with
  | cons _ rest =>
    obtain rfl := List.sublist_nil.1 rest
    rw [List.append_nil] at recorded ⊢
    exact Or.inl ⟨frontInOrder, recorded.linked, recorded.arrives⟩
  | cons_cons _ rest =>
    obtain rfl := List.sublist_nil.1 rest
    have ends : consumer = target := recorded.arrives (producer, consumer) (by simp)
    refine Or.inr ⟨ends.symm, front, rfl, frontInOrder, recorded.linked.left_of_append, ?_⟩
    intro last member
    exact (List.isChain_append.1 recorded.linked).2.2 last member (producer, consumer) (by simp)

end RecordedWalk

namespace LongestWalk

/-- Without edges there is only the walk without edges. -/
theorem nil (target : Uid) : LongestWalk [] target 0 := by
  refine ⟨⟨[], RecordedWalk.nil [] target, rfl⟩, ?_⟩
  rintro _ ⟨walk, recorded, rfl⟩
  rw [List.sublist_nil.1 recorded.inOrder]
  exact Nat.le_refl 0

/-- A new edge gives no longer walk to an instruction other than its consumer. -/
theorem concat_other {edges : List (Uid × Uid)} {target : Uid} {length : Nat}
    (longest : LongestWalk edges target length) (producer : Uid) {consumer : Uid}
    (different : target ≠ consumer) :
    LongestWalk (edges ++ [(producer, consumer)]) target length := by
  obtain ⟨⟨walk, recorded, counted⟩, bound⟩ := longest
  refine ⟨⟨walk, recorded.weaken _, counted⟩, ?_⟩
  rintro _ ⟨other, recordedOther, rfl⟩
  rcases recordedOther.of_concat with old | ⟨same, _⟩
  · exact bound ⟨other, old, rfl⟩
  · exact absurd same different

/-- The longest walk to the consumer of a new edge is the longest one so far, or the longest
one to the producer with the new edge behind it. -/
theorem concat_consumer {edges : List (Uid × Uid)} {producer consumer : Uid}
    {toProducer toConsumer : Nat} (longestProducer : LongestWalk edges producer toProducer)
    (longestConsumer : LongestWalk edges consumer toConsumer) :
    LongestWalk (edges ++ [(producer, consumer)]) consumer (max toConsumer (toProducer + 1)) := by
  obtain ⟨⟨walkProducer, recordedProducer, countedProducer⟩, boundProducer⟩ := longestProducer
  obtain ⟨⟨walkConsumer, recordedConsumer, countedConsumer⟩, boundConsumer⟩ := longestConsumer
  constructor
  · by_cases longer : toConsumer ≤ toProducer + 1
    · rw [Nat.max_eq_right longer]
      exact ⟨_, recordedProducer.concat consumer, by simp [countedProducer]⟩
    · rw [Nat.max_eq_left (Nat.le_of_not_le longer)]
      exact ⟨walkConsumer, recordedConsumer.weaken _, countedConsumer⟩
  · rintro _ ⟨walk, recorded, rfl⟩
    rcases recorded.of_concat with old | ⟨_, front, rfl, recordedFront⟩
    · exact Nat.le_trans (boundConsumer ⟨walk, old, rfl⟩) (Nat.le_max_left _ _)
    · have short : front.length ≤ toProducer := boundProducer ⟨front, recordedFront, rfl⟩
      rw [List.length_append, List.length_singleton]
      exact Nat.le_trans (Nat.succ_le_succ short) (Nat.le_max_right _ _)

end LongestWalk

namespace DependencyGraph

/-- The level of an instruction is one more than the length of the longest recorded walk to
it, as far as depths go.

Induct over the recording. A commit moves neither side. An edge moves both sides at its
consumer alone, and there both become the larger of what they were and one more than what
the producer has; stopping at the largest depth early or late makes no difference. -/
theorem level_eq_longest_walk (steps : List Step) (uid : Uid) :
    ∃ longest, LongestWalk (edges steps) uid longest ∧
      (after steps).depths.level uid = min (1 + longest) maxHalfWord := by
  induction steps using List.reverseRecOn generalizing uid with
  | nil =>
    have leaf : leafDepth = min (1 + 0) maxHalfWord := by decide
    exact ⟨0, LongestWalk.nil uid, leaf⟩
  | append_singleton steps step ih =>
    rw [after_concat, edges_concat, level_recordStep]
    cases step with
    | commit => simpa [Step.edge?] using ih uid
    | edge producer consumer =>
      obtain ⟨toTarget, longestTarget, levelTarget⟩ := ih uid
      simp only [Step.edge?, Option.toList]
      by_cases same : uid = consumer
      · subst same
        obtain ⟨toProducer, longestProducer, levelProducer⟩ := ih producer
        refine ⟨_, longestProducer.concat_consumer longestTarget, ?_⟩
        rw [if_pos rfl, levelTarget, levelProducer]
        generalize maxHalfWord = limit
        omega
      · refine ⟨toTarget, longestTarget.concat_other producer same, ?_⟩
        rw [if_neg same, levelTarget]

end DependencyGraph

namespace Engine

/-- After any run, exactly the ends of recorded edges and the committed instructions were
seen. One of these has as its depth one more than the number of edges of the longest
recorded walk to it, up to the largest 32-bit word; any other instruction has depth zero. -/
theorem depth_eq_longest_walk (config : Config) (calls : List Call) (uid : Uid) :
    let depths := (after config calls).graph.depths
    let edges := DependencyGraph.edges (recording calls)
    let commits := DependencyGraph.commits (recording calls)
    (depths.contains uid = true ↔
      (∃ edge ∈ edges, edge.1 = uid ∨ edge.2 = uid) ∨ uid ∈ commits) ∧
    ∃ longest, LongestWalk edges uid longest ∧
      depths.depth uid =
        if depths.contains uid then min (1 + longest) maxHalfWord else 0 := by
  intro depths edges commits
  have recorded : depths = (DependencyGraph.after (recording calls)).depths :=
    congrArg DependencyGraph.depths (graph_after config calls)
  obtain ⟨longest, longestWalk, level⟩ :=
    DependencyGraph.level_eq_longest_walk (recording calls) uid
  refine ⟨?_, longest, longestWalk, ?_⟩
  · rw [recorded]
    exact DependencyGraph.contains_after (recording calls) uid
  · rw [DepthTable.depth_eq_level, recorded, level]

end Engine

end AccelProfile
