import Mathlib.Data.Fintype.EquivFin
import Mathlib.Data.List.Nodup
import Mathlib.Order.WellFounded
import AccelProfile.Proofs.Recording

/-!
# Graphs without a cycle

A recording is free of cycles if no chain of its edges leads from an instruction back to itself;
an edge from an instruction to itself is such a chain. There are only finitely many identifiers,
so from a producer to its own producers one comes to an end, wherever one starts: what holds of
an instruction as soon as it holds of its producers holds of all instructions.

Wearing the graph away finds every cycle. Each instruction on a cycle has a producer on the cycle,
and that producer is a consumer itself, so no round drops any of them. And it finds nothing else:
there are rounds enough to come to an end, and then every consumer that is left has a producer that
is left. One could go on for ever from producer to producer, which takes a cycle.
-/

namespace AccelProfile

theorem Uid.finite : Finite Uid := by
  refine Finite.of_injective (fun uid : Uid => uid.val.toFin) ?_
  rintro ⟨value⟩ ⟨other⟩ same
  exact congrArg Uid.mk (UInt64.toFin_inj.1 same)

namespace ProducerIndex

/-- Each of these instructions is a consumer with one of them among its producers. -/
def Sustained (held : Uid → Prop) (lists : List (Uid × List Uid)) : Prop :=
  ∀ uid, held uid → ∃ producers, (uid, producers) ∈ lists ∧ ∃ producer ∈ producers, held producer

variable {held : Uid → Prop} {lists : List (Uid × List Uid)}

/-- A round of wearing drops no instruction that is sustained. -/
theorem Sustained.wear (sustained : Sustained held lists) :
    Sustained held (wear lists) := by
  intro uid isHeld
  obtain ⟨producers, listed, producer, member, producerHeld⟩ := sustained uid isHeld
  obtain ⟨others, producerListed, -⟩ := sustained producer producerHeld
  refine ⟨producers, List.mem_filter.2 ⟨listed, ?_⟩, producer, member, producerHeld⟩
  exact List.any_eq_true.2 ⟨producer, member, List.any_eq_true.2 ⟨_, producerListed, by simp⟩⟩

/-- No number of rounds drops an instruction that is sustained. -/
theorem Sustained.core (sustained : Sustained held lists) (rounds : Nat) :
    Sustained held (core rounds lists) := by
  induction rounds generalizing lists with
  | zero => exact sustained
  | succ rounds ih =>
    simp only [ProducerIndex.core]
    split
    · exact sustained
    · exact ih sustained.wear

/-- What is sustained by some consumers is sustained by more of them. -/
theorem Sustained.mono {more : List (Uid × List Uid)} (sustained : Sustained held lists)
    (kept : lists ⊆ more) : Sustained held more := by
  intro uid isHeld
  obtain ⟨producers, listed, sustaining⟩ := sustained uid isHeld
  exact ⟨producers, kept listed, sustaining⟩

/-- Where a round drops nothing, the consumers sustain one another. -/
theorem sustained_of_wear_eq (ended : ProducerIndex.wear lists = lists) :
    Sustained (· ∈ lists.map Prod.fst) lists := by
  intro uid consumes
  obtain ⟨⟨consumer, producers⟩, listed, rfl⟩ := List.mem_map.1 consumes
  rw [← ended, ProducerIndex.wear, List.mem_filter] at listed
  obtain ⟨producer, member, known⟩ := List.any_eq_true.1 listed.2
  obtain ⟨entry, producerListed, same⟩ := List.any_eq_true.1 known
  exact ⟨producers, listed.1, producer, member,
    List.mem_map.2 ⟨entry, producerListed, of_decide_eq_true same⟩⟩

theorem core_subset (rounds : Nat) (lists : List (Uid × List Uid)) :
    ProducerIndex.core rounds lists ⊆ lists := by
  induction rounds generalizing lists with
  | zero => exact List.Subset.refl lists
  | succ rounds ih =>
    simp only [ProducerIndex.core]
    split
    · exact List.Subset.refl lists
    · exact List.Subset.trans (ih _) (List.filter_subset_self lists)

/-- With as many rounds as there are consumers, wearing comes to an end: each round but the last
drops one of them. -/
theorem wear_core {rounds : Nat} (enough : lists.length ≤ rounds) :
    ProducerIndex.wear (ProducerIndex.core rounds lists) = ProducerIndex.core rounds lists := by
  induction rounds generalizing lists with
  | zero =>
    rw [List.length_eq_zero_iff.1 (Nat.le_zero.1 enough)]
    rfl
  | succ rounds ih =>
    simp only [ProducerIndex.core]
    split
    · next same => exact List.filter_sublist.eq_of_length same
    · next dropped =>
      have fewer : (ProducerIndex.wear lists).length ≤ lists.length := List.length_filter_le _ _
      exact ih (by omega)

variable {index : ProducerIndex} {producer consumer : Uid}

/-- The producers of a consumer are those that stand at its entry. -/
theorem mem_producersOf_iff : producer ∈ index.producersOf consumer ↔
    ∃ producers, (consumer, producers) ∈ index.lists.entries ∧ producer ∈ producers := by
  simp only [producersOf, ← FirstSeen.get?_eq_some_iff]
  cases index.lists.get? consumer <;> simp

theorem mem_pairs_iff :
    (producer, consumer) ∈ index.pairs ↔ producer ∈ index.producersOf consumer := by
  simp [pairs, mem_producersOf_iff]

/-- The edges of the graph are the recorded ones. -/
theorem mem_edges_iff :
    (producer, consumer) ∈ index.edges ↔ producer ∈ index.producersOf consumer := by
  rw [← mem_pairs_iff]
  simp only [edges, nodes, List.mem_flatMap, List.mem_map, Uid.mem_ascending, List.mem_filter,
    decide_eq_true_eq, Prod.mk.injEq]
  constructor
  · rintro ⟨_, -, _, ⟨⟨_, _⟩, ⟨recorded, rfl⟩, rfl⟩, rfl, rfl⟩
    exact recorded
  · intro recorded
    exact ⟨producer, ⟨_, recorded, List.mem_cons_self⟩, consumer,
      ⟨_, ⟨recorded, rfl⟩, rfl⟩, rfl, rfl⟩

/-- The graph has each of its edges once, however often it was recorded. -/
theorem nodup_edges (index : ProducerIndex) : index.edges.Nodup := by
  have distinct (uids : List Uid) : (Uid.ascending uids).Nodup :=
    Uid.nodup_of_ascends (Uid.ascending_ascends uids)
  rw [edges, List.nodup_flatMap]
  refine ⟨fun producer _ => (distinct _).map (Prod.mk_right_injective producer), ?_⟩
  refine (distinct _).imp fun {producer other} different => ?_
  intro edge fromProducer fromOther
  obtain ⟨_, -, rfl⟩ := List.mem_map.1 fromProducer
  obtain ⟨_, -, same⟩ := List.mem_map.1 fromOther
  exact different (congrArg Prod.fst same).symm

end ProducerIndex

namespace DependencyGraph

open Relation (TransGen)

/-- An edge leads from the producer to the consumer. -/
def Linked (edges : List (Uid × Uid)) (producer consumer : Uid) : Prop :=
  (producer, consumer) ∈ edges

/-- No chain of edges leads from an instruction back to itself. -/
def Acyclic (edges : List (Uid × Uid)) : Prop :=
  ∀ uid, ¬ TransGen (Linked edges) uid uid

/-- What holds of an instruction as soon as it holds of its producers holds of all. -/
theorem Acyclic.wellFounded {edges : List (Uid × Uid)} (acyclic : Acyclic edges) :
    WellFounded (Linked edges) := by
  have : Finite Uid := Uid.finite
  have : Std.Irrefl (TransGen (Linked edges)) := ⟨acyclic⟩
  exact Subrelation.wf TransGen.single (Finite.wellFounded_of_trans_of_irrefl _)

/-- What is recorded in a graph adds its edges to the index. Neither commits nor the depths that
were there before make a difference to it. -/
theorem producers_foldl_recordStep (graph : DependencyGraph) (steps : List Step) :
    (steps.foldl recordStep graph).producers =
      (edges steps).foldl (fun index edge => index.record edge.1 edge.2) graph.producers := by
  induction steps generalizing graph with
  | nil => rfl
  | cons step steps ih => cases step <;> exact ih _

/-- A consumer stands in the index with its producers. -/
theorem mem_entries_of_edge (steps : List Step) {producer consumer : Uid}
    (recorded : (producer, consumer) ∈ edges steps) :
    ∃ producers, (consumer, producers) ∈ (after steps).producers.lists.entries ∧
      producer ∈ producers :=
  ProducerIndex.mem_producersOf_iff.1 ((mem_producersOf_after steps producer consumer).2 recorded)

/-- A recorded graph that wears away completely has no cycle. -/
theorem acyclic_of_isAcyclic {steps : List Step}
    (wornAway : (after steps).producers.isAcyclic = true) : Acyclic (edges steps) := by
  intro uid cycle
  -- The instructions on cycles sustain one another.
  have sustained : ProducerIndex.Sustained (fun uid => TransGen (Linked (edges steps)) uid uid)
      (after steps).producers.lists.entries := by
    intro uid cycle
    obtain ⟨producer, round, recorded⟩ := TransGen.tail'_iff.1 cycle
    obtain ⟨producers, listed, member⟩ := mem_entries_of_edge steps recorded
    exact ⟨producers, listed, producer, member, TransGen.head' recorded round⟩
  obtain ⟨producers, left, -⟩ := sustained.core (after steps).producers.consumerCount uid cycle
  rw [ProducerIndex.isAcyclic, List.isEmpty_iff] at wornAway
  rw [wornAway] at left
  cases left

/-- Without a cycle, no consumers of a recorded graph sustain one another: there would be no end
of going from one of them to a producer among them. -/
theorem Acyclic.not_sustained {steps : List Step} (acyclic : Acyclic (edges steps))
    {held : Uid → Prop}
    (sustained : ProducerIndex.Sustained held (after steps).producers.lists.entries) (uid : Uid) :
    ¬ held uid := by
  induction uid using acyclic.wellFounded.induction with
  | _ uid ih =>
    intro isHeld
    obtain ⟨producers, listed, producer, member, producerHeld⟩ := sustained uid isHeld
    have known := ProducerIndex.mem_producersOf_iff.2 ⟨producers, listed, member⟩
    exact ih producer ((mem_producersOf_after steps producer uid).1 known) producerHeld

/-- A recorded graph wears away completely exactly if it has no cycle. -/
theorem isAcyclic_iff (steps : List Step) :
    (after steps).producers.isAcyclic = true ↔ Acyclic (edges steps) := by
  refine ⟨acyclic_of_isAcyclic, fun acyclic => ?_⟩
  let lists := (after steps).producers.lists.entries
  let left := ProducerIndex.core lists.length lists
  have sustained : ProducerIndex.Sustained (· ∈ left.map Prod.fst) lists :=
    (ProducerIndex.sustained_of_wear_eq (ProducerIndex.wear_core (Nat.le_refl _))).mono
      (ProducerIndex.core_subset _ _)
  have nothingLeft : left.map Prod.fst = [] :=
    List.eq_nil_iff_forall_not_mem.2 (acyclic.not_sustained sustained)
  exact List.isEmpty_iff.2 (List.map_eq_nil_iff.1 nothingLeft)

/-- Whatever was recorded, on top of whatever depths, the graph has each recorded edge once, and
the search finds a cycle exactly if some chain of recorded edges leads from an instruction back to
itself. So the answer is the same for every recording of these edges, in any order, with any
repeats and any commits. -/
theorem cycle_found_iff (depths : DepthTable) (steps : List Step) :
    let index := (steps.foldl recordStep ⟨depths, .empty⟩).producers
    (index.edges.Nodup ∧ ∀ edge, edge ∈ index.edges ↔ edge ∈ edges steps) ∧
    (index.isAcyclic = false ↔ ∃ uid, TransGen (Linked (edges steps)) uid uid) ∧
    ∀ (otherDepths : DepthTable) (others : List Step),
      (∀ edge, edge ∈ edges others ↔ edge ∈ edges steps) →
        (others.foldl recordStep ⟨otherDepths, .empty⟩).producers.isAcyclic =
          index.isAcyclic := by
  have sameIndex (depths : DepthTable) (steps : List Step) :
      (steps.foldl recordStep ⟨depths, .empty⟩).producers = (after steps).producers := by
    rw [producers_foldl_recordStep, after, producers_foldl_recordStep]
    rfl
  simp only [sameIndex]
  refine ⟨⟨ProducerIndex.nodup_edges _, ?_⟩, ?_, ?_⟩
  · rintro ⟨producer, consumer⟩
    exact ProducerIndex.mem_edges_iff.trans (mem_producersOf_after steps producer consumer)
  · rw [← Bool.not_eq_true, isAcyclic_iff, Acyclic]
    push Not
    rfl
  · intro _ others sameEdges
    have sameLinks : Linked (edges others) = Linked (edges steps) :=
      funext fun _ => funext fun _ => propext (sameEdges _)
    rw [Bool.eq_iff_iff, isAcyclic_iff, isAcyclic_iff, Acyclic, Acyclic, sameLinks]

-- Two ways from 1 to 4 are no cycle, nor is an edge that is recorded twice. A cycle apart from
-- them is one.
example : (after [.edge ⟨1⟩ ⟨2⟩, .edge ⟨1⟩ ⟨3⟩, .edge ⟨2⟩ ⟨4⟩, .edge ⟨3⟩ ⟨4⟩,
    .edge ⟨1⟩ ⟨2⟩]).producers.isAcyclic = true := by decide
example : (after [.edge ⟨1⟩ ⟨2⟩, .edge ⟨8⟩ ⟨9⟩, .edge ⟨2⟩ ⟨3⟩, .edge ⟨9⟩ ⟨8⟩]).producers.isAcyclic =
    false := by decide

end DependencyGraph

end AccelProfile
