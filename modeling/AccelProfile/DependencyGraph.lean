import AccelProfile.Dependency
import AccelProfile.DepthTable
import AccelProfile.Words
/-!
# The graph of dependencies

All edges of a run, kept at their consumers: each consumer has the list of its producers
in the order in which they were recorded, repeats included. Recording an edge also
deepens its consumer, so the graph holds the depths of the instructions with it.

Whether the graph has a cycle is decided by wearing it away: a consumer none of whose
producers is a consumer itself cannot lie on a cycle and is dropped. When nothing more
can be dropped, what is left is empty or holds a cycle. An edge from an instruction to
itself is a cycle.
-/

namespace AccelProfile

/-- The producers of every consumer. -/
structure ProducerIndex where
  /-- The producers of each consumer in recording order. -/
  lists : FirstSeen Uid (List Uid)
  /-- The number of recorded edges, repeats included. -/
  edgeCount : Nat

namespace ProducerIndex

/-- The index before anything was recorded. -/
def empty : ProducerIndex :=
  ⟨.empty, 0⟩

/-- Records an edge at its consumer. -/
def record (index : ProducerIndex) (producer consumer : Uid) : ProducerIndex :=
  { lists := index.lists.update consumer fun known => known.getD [] ++ [producer]
    edgeCount := index.edgeCount + 1 }

/-- The producers of an instruction in recording order; none if it was never a
    consumer. -/
def producersOf (index : ProducerIndex) (consumer : Uid) : List Uid :=
  (index.lists.get? consumer).getD []

/-- Recording an edge adds its producer behind the other producers of its consumer. -/
@[simp]
theorem producersOf_record (index : ProducerIndex) (producer consumer other : Uid) :
    (index.record producer consumer).producersOf other =
      if other = consumer then index.producersOf consumer ++ [producer]
      else index.producersOf other := by
  by_cases same : other = consumer <;>
    simp [producersOf, record, FirstSeen.get?_update, same]

/-- The number of instructions that have a producer. -/
def consumerCount (index : ProducerIndex) : Nat :=
  index.lists.size

/-- The recorded pairs of a producer and a consumer, repeats included. -/
def pairs (index : ProducerIndex) : List (Uid × Uid) :=
  index.lists.entries.flatMap fun (consumer, producers) => producers.map (·, consumer)

/-- All instructions at the ends of recorded edges, in ascending order. -/
def nodes (index : ProducerIndex) : List Uid :=
  Uid.ascending (index.pairs.flatMap fun (producer, consumer) => [producer, consumer])

/-- The distinct recorded edges, ordered by producer and then by consumer. -/
def edges (index : ProducerIndex) : List (Uid × Uid) :=
  index.nodes.flatMap fun producer =>
    (Uid.ascending <| (index.pairs.filter fun pair => pair.1 = producer).map Prod.snd).map
      (producer, ·)

/-- Drops the consumers that have no producer among the consumers. -/
def wear (lists : List (Uid × List Uid)) : List (Uid × List Uid) :=
  lists.filter fun (_, producers) =>
    producers.any fun producer => lists.any fun (consumer, _) => consumer = producer

/-- What wearing away leaves after at most so many rounds; it stops when a round drops
    nothing. -/
def core : Nat → List (Uid × List Uid) → List (Uid × List Uid)
  | 0, lists => lists
  | rounds + 1, lists =>
    let left := wear lists
    if left.length = lists.length then lists else core rounds left

/-- Whether no chain of edges leads from an instruction back to itself. Every round but
    the last drops a consumer, so there are never more rounds than consumers. -/
def isAcyclic (index : ProducerIndex) : Bool :=
  (core index.consumerCount index.lists.entries).isEmpty

end ProducerIndex

/-- The instructions of a run with their depths and the edges between them. -/
structure DependencyGraph where
  depths : DepthTable
  producers : ProducerIndex

namespace DependencyGraph

/-- The graph of a run in which nothing happened yet. -/
def empty : DependencyGraph :=
  ⟨.empty, .empty⟩

/-- Records an edge: its producer is seen, and its consumer is raised to one more than
    the depth of the producer, as far as depths go. Tells the largest depth if the edge
    moved it. -/
def record (graph : DependencyGraph) (producer consumer : Uid) :
    DependencyGraph × Option Nat :=
  let seen := graph.depths.ensure producer
  let (depths, moved) := seen.raise consumer (min (seen.depth producer + 1) maxHalfWord)
  (⟨depths, graph.producers.record producer consumer⟩, moved)

/-- Recording an edge sees both of its ends. -/
theorem contains_record (graph : DependencyGraph) (producer consumer uid : Uid) :
    (graph.record producer consumer).1.depths.contains uid =
      (decide (uid = consumer) || (decide (uid = producer) || graph.depths.contains uid)) := by
  simp [record]

/-- Recording an edge raises the level of its consumer to one more than that of its
    producer, as far as depths go, and moves no other level. -/
theorem level_record (graph : DependencyGraph) (producer consumer uid : Uid) :
    (graph.record producer consumer).1.depths.level uid =
      if uid = consumer then
        max (graph.depths.level consumer) (min (graph.depths.level producer + 1) maxHalfWord)
      else graph.depths.level uid := by
  have read : (graph.depths.ensure producer).depth producer = graph.depths.level producer := by
    simp [DepthTable.depth_eq_level]
  simp [record, read]

/-- Commits an instruction under an opcode and a class. -/
def commit (graph : DependencyGraph) (uid : Uid) (opcode : Opcode) (opClass : OpClass) :
    DependencyGraph :=
  { graph with depths := graph.depths.commit uid opcode opClass }

end DependencyGraph

end AccelProfile
