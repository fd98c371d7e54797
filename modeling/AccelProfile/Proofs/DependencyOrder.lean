import Mathlib.Data.List.Nodup
import AccelProfile.Proofs.RecordedWalks

/-!
# Edges in dependency order

A chain is a list of instructions, each of them a recorded producer of the next. Which
chains there are does not depend on when the edges were recorded. The depths do: they
follow the edges in recording order. The two agree where edges are recorded in dependency
order, that is, where no edge into an instruction comes after an edge out of it and no
instruction waits for itself. A producer then has its final level when an edge leads out
of it, so levels rise along every edge, and the level of an instruction is the number of
instructions on a longest chain that ends at it.
-/

namespace AccelProfile

namespace DependencyGraph

/-- A list of instructions, each of them a recorded producer of the next. -/
def Chain (edges : List (Uid × Uid)) (chain : List Uid) : Prop :=
  chain.IsChain fun producer consumer => (producer, consumer) ∈ edges

/-- A chain goes on behind its end exactly along an edge out of it. -/
theorem chain_concat_iff {edges : List (Uid × Uid)} {front : List Uid} {producer consumer : Uid} :
    Chain edges (front ++ [producer] ++ [consumer]) ↔
      Chain edges (front ++ [producer]) ∧ (producer, consumer) ∈ edges := by
  rw [List.append_assoc, List.singleton_append, Chain, List.isChain_append_cons_cons]
  exact and_congr_right fun _ => and_iff_left (List.IsChain.singleton consumer)

/-- Edges recorded in dependency order. -/
structure DependencyOrdered (edges : List (Uid × Uid)) : Prop where
  /-- No instruction waits for itself. -/
  noLoop : ∀ edge ∈ edges, edge.1 ≠ edge.2
  /-- No edge into an instruction is recorded after an edge out of it. -/
  intoFirst : edges.Pairwise fun earlier later => later.2 ≠ earlier.1

namespace DependencyOrdered

/-- What comes before the last edge is in dependency order, and the last edge leads into
no instruction that an edge leads out of. -/
theorem of_concat {edges : List (Uid × Uid)} {last : Uid × Uid}
    (ordered : DependencyOrdered (edges ++ [last])) :
    DependencyOrdered edges ∧ ∀ edge ∈ edges ++ [last], last.2 ≠ edge.1 := by
  obtain ⟨before, _, into⟩ := List.pairwise_append.1 ordered.intoFirst
  refine ⟨⟨fun edge member => ordered.noLoop edge (List.mem_append_left _ member), before⟩, ?_⟩
  intro edge member
  rcases List.mem_append.1 member with old | new
  · exact into edge old last List.mem_cons_self
  · rw [List.mem_singleton.1 new]
    exact (ordered.noLoop last (by simp)).symm

/-- A chain can go along the last edge only at its end, since no edge leads out of the
consumer of that edge. -/
theorem chain_dropLast {edges : List (Uid × Uid)} {last : Uid × Uid}
    (ordered : DependencyOrdered (edges ++ [last])) {chain : List Uid}
    (linked : Chain (edges ++ [last]) chain) : Chain edges chain.dropLast := by
  induction chain with
  | nil => exact List.IsChain.nil
  | cons first rest ih =>
    cases rest with
    | nil => exact List.IsChain.nil
    | cons second rest =>
      cases rest with
      | nil => exact List.IsChain.singleton first
      | cons third rest =>
        obtain ⟨step, onwards⟩ := List.isChain_cons_cons.1 linked
        have next : (second, third) ∈ edges ++ [last] := (List.isChain_cons_cons.1 onwards).1
        have old : (first, second) ∈ edges := by
          refine (List.mem_append.1 step).resolve_right fun new => ?_
          have isLast : (first, second) = last := List.mem_singleton.1 new
          exact ordered.of_concat.2 _ next (congrArg Prod.snd isLast.symm)
        exact List.isChain_cons_cons.2 ⟨old, ih onwards⟩

/-- In dependency order a chain has at most one instruction more than edges were recorded. -/
theorem chain_length_le {edges : List (Uid × Uid)} (ordered : DependencyOrdered edges)
    {chain : List Uid} (linked : Chain edges chain) : chain.length ≤ edges.length + 1 := by
  induction edges using List.reverseRecOn generalizing chain with
  | nil =>
    cases chain with
    | nil => exact Nat.zero_le 1
    | cons first rest =>
      cases rest with
      | nil => exact Nat.le_refl 1
      | cons second rest =>
        exact absurd (List.isChain_cons_cons.1 linked).1 List.not_mem_nil
  | append_singleton edges last ih =>
    have shorter := ih ordered.of_concat.1 (ordered.chain_dropLast linked)
    rw [List.length_dropLast] at shorter
    rw [List.length_append, List.length_singleton]
    omega

end DependencyOrdered

/-- A recorded walk passes the instructions of a chain, one more than it has edges. -/
theorem chain_of_walk {edges : List (Uid × Uid)} {target : Uid} {walk : List (Uid × Uid)}
    (recorded : RecordedWalk edges target walk) :
    ∃ front, Chain edges (front ++ [target]) ∧ front.length = walk.length := by
  induction walk using List.reverseRecOn generalizing target with
  | nil => exact ⟨[], List.IsChain.singleton target, rfl⟩
  | append_singleton walk last ih =>
    obtain ⟨producer, consumer⟩ := last
    obtain rfl : consumer = target := recorded.arrives (producer, consumer) (by simp)
    have step : (producer, consumer) ∈ edges :=
      recorded.inOrder.subset (List.mem_append_right _ List.mem_cons_self)
    have toProducer : RecordedWalk edges producer walk := by
      refine ⟨(List.sublist_append_left _ _).trans recorded.inOrder,
        recorded.linked.left_of_append, ?_⟩
      intro last member
      exact (List.isChain_append.1 recorded.linked).2.2 last member (producer, consumer) (by simp)
    obtain ⟨front, linked, counted⟩ := ih toProducer
    exact ⟨front ++ [producer], chain_concat_iff.2 ⟨linked, step⟩, by simp [counted]⟩

/-- In dependency order levels rise along every recorded edge, as far as depths go. No edge
into the producer can come after the edge itself, so the producer stays where it was when
it raised the consumer, and the consumer can only get deeper. -/
theorem level_rises (steps : List Step) (ordered : DependencyOrdered (edges steps))
    {producer consumer : Uid} (recorded : (producer, consumer) ∈ edges steps) :
    min ((after steps).depths.level producer + 1) maxHalfWord ≤
      (after steps).depths.level consumer := by
  induction steps using List.reverseRecOn with
  | nil => exact absurd recorded List.not_mem_nil
  | append_singleton steps step ih =>
    have producerLevel := level_recordStep (after steps) step producer
    have consumerGrows := level_le_recordStep (after steps) step consumer
    have consumerLevel := level_recordStep (after steps) step consumer
    rw [after_concat]
    rw [edges_concat] at ordered recorded
    cases step with
    | commit uid opcode opClass =>
      simp only [Step.edge?, Option.toList, List.append_nil] at ordered recorded
      rw [producerLevel]
      exact Nat.le_trans (ih ordered recorded) consumerGrows
    | edge lastProducer lastConsumer =>
      simp only [Step.edge?, Option.toList] at ordered recorded
      have settled : producer ≠ lastConsumer := (ordered.of_concat.2 _ recorded).symm
      simp only [settled, if_false] at producerLevel
      rw [producerLevel]
      rcases List.mem_append.1 recorded with old | new
      · exact Nat.le_trans (ih ordered.of_concat.1 old) consumerGrows
      · -- The edge itself raises the consumer above the level that the producer has now.
        obtain ⟨rfl, rfl⟩ := Prod.mk.inj (List.mem_singleton.1 new)
        simp only [if_true] at consumerLevel
        rw [consumerLevel]
        exact Nat.le_max_right _ _

/-- A recording in dependency order of which no chain is longer than depths can tell. -/
structure Layered (steps : List Step) : Prop where
  ordered : DependencyOrdered (edges steps)
  short : ∀ chain, Chain (edges steps) chain → chain.length ≤ maxHalfWord

namespace Layered

/-- A chain is no longer than the level of the instruction at which it ends. -/
theorem length_le_level {steps : List Step} (layered : Layered steps) {front : List Uid}
    {uid : Uid} (linked : Chain (edges steps) (front ++ [uid])) :
    front.length + 1 ≤ (after steps).depths.level uid := by
  induction front using List.reverseRecOn generalizing uid with
  | nil => exact (consistent_after steps).leaf_le uid
  | append_singleton front previous ih =>
    obtain ⟨toPrevious, step⟩ := chain_concat_iff.1 linked
    have long := ih toPrevious
    have rises := level_rises steps layered.ordered step
    have fits := layered.short _ linked
    simp only [List.length_append, List.length_singleton] at fits ⊢
    generalize maxHalfWord = limit at rises fits
    omega

/-- Some chain that ends at an instruction is as long as the level of the instruction. -/
theorem exists_chain {steps : List Step} (layered : Layered steps) (uid : Uid) :
    ∃ front, Chain (edges steps) (front ++ [uid]) ∧
      front.length + 1 = (after steps).depths.level uid := by
  obtain ⟨longest, ⟨⟨walk, recorded, rfl⟩, _⟩, level⟩ := level_eq_longest_walk steps uid
  obtain ⟨front, linked, counted⟩ := chain_of_walk recorded
  have fits := layered.short _ linked
  refine ⟨front, linked, ?_⟩
  rw [List.length_append, List.length_singleton] at fits
  rw [level, ← counted, Nat.add_comm 1, Nat.min_eq_left fits]

/-- Levels rise along every recorded edge: a longest chain to the producer goes on along
the edge. -/
theorem level_lt {steps : List Step} (layered : Layered steps) {producer consumer : Uid}
    (recorded : (producer, consumer) ∈ edges steps) :
    (after steps).depths.level producer < (after steps).depths.level consumer := by
  obtain ⟨front, linked, counted⟩ := layered.exists_chain producer
  have long := layered.length_le_level (chain_concat_iff.2 ⟨linked, recorded⟩)
  rw [List.length_append, List.length_singleton, counted] at long
  exact long

/-- No instruction occurs twice on a chain. -/
theorem nodup {steps : List Step} (layered : Layered steps) {chain : List Uid}
    (linked : Chain (edges steps) chain) : chain.Nodup := by
  have rising : (chain.map (after steps).depths.level).IsChain (· < ·) :=
    (List.isChain_map _).2 (linked.imp fun _ _ recorded => layered.level_lt recorded)
  exact List.Nodup.of_map _ (rising.pairwise.imp fun {_ _} => Nat.ne_of_lt)

end Layered

end DependencyGraph

end AccelProfile
