import Mathlib.Data.List.Dedup
import AccelProfile.Proofs.AcyclicGraphs
import AccelProfile.Proofs.EngineCalls

/-!
# The stores of the edges

Every recorded edge goes to four stores. The index of producers keeps it at its consumer, behind the
edges into that consumer that came before, and repeats stay. The index counts it, the summary counts
it once as an edge and once for each of its kinds, and both of its ends are seen in the table of
depths. The graph that is read off the index has each edge and each end once.

No other call touches an edge in any of these, so after any run all four tell of the same edges:
those of the run.
-/

namespace AccelProfile

namespace ProducerIndex

/-- The number of producers in all lists together. -/
def listed (index : ProducerIndex) : Nat :=
  (index.lists.entries.map fun (_, producers) => producers.length).sum

/-- Another producer makes one of the lists longer by one, be it a new list or not. -/
theorem listed_record (index : ProducerIndex) (producer consumer : Uid) :
    (index.record producer consumer).listed = index.listed + 1 := by
  have lengths (entries : List (Uid × List Uid)) :
      ((FirstSeen.updateEntries consumer (fun known => known.getD [] ++ [producer])
        entries).map fun (_, producers) => producers.length).sum =
        (entries.map fun (_, producers) => producers.length).sum + 1 := by
    induction entries with
    | nil => rfl
    | cons head tail ih =>
      obtain ⟨first, producers⟩ := head
      by_cases same : first = consumer
      · simp only [FirstSeen.updateEntries, same, if_true, Option.getD_some, List.map_cons,
          List.sum_cons, List.length_append, List.length_singleton]
        omega
      · simp only [FirstSeen.updateEntries, same, if_false, List.map_cons, List.sum_cons, ih]
        omega
  exact lengths index.lists.entries

/-- What an index has of its edges besides the producers of each consumer. -/
structure Holds (index : ProducerIndex) (pairs : List (Uid × Uid)) : Prop where
  edgeCount : index.edgeCount = pairs.length
  listed : index.listed = pairs.length
  consumers : ∀ consumer, consumer ∈ index.lists.keys ↔ consumer ∈ pairs.map Prod.snd

namespace Holds

variable {index : ProducerIndex} {pairs : List (Uid × Uid)}

theorem empty : Holds .empty [] :=
  ⟨rfl, rfl, fun _ => Iff.rfl⟩

theorem record (holds : index.Holds pairs) (producer consumer : Uid) :
    (index.record producer consumer).Holds (pairs ++ [(producer, consumer)]) where
  edgeCount := by
    rw [List.length_append, List.length_singleton, ← holds.edgeCount]
    rfl
  listed := by
    rw [listed_record, holds.listed, List.length_append, List.length_singleton]
  consumers other := by
    rw [List.map_append, List.map_singleton, List.mem_append, List.mem_singleton,
      ← holds.consumers other, or_comm]
    exact FirstSeen.mem_keys_updateEntries

/-- There are as many lists as consumers, however many edges each of them has. -/
theorem consumerCount (holds : index.Holds pairs) :
    index.consumerCount = (pairs.map Prod.snd).dedup.length := by
  have same : index.lists.keys.Perm (pairs.map Prod.snd).dedup := by
    apply (List.perm_ext_iff_of_nodup index.lists.distinct (List.nodup_dedup _)).2
    intro consumer
    rw [List.mem_dedup]
    exact holds.consumers consumer
  rw [← same.length_eq, FirstSeen.keys, List.length_map]
  rfl

end Holds

/-- The nodes of the graph are the ends of the recorded edges. -/
theorem mem_nodes_iff {index : ProducerIndex} {uid : Uid} : uid ∈ index.nodes ↔
    ∃ producer consumer, producer ∈ index.producersOf consumer ∧
      (uid = producer ∨ uid = consumer) := by
  simp only [nodes, Uid.mem_ascending, List.mem_flatMap, Prod.exists, mem_pairs_iff, List.mem_cons,
    List.not_mem_nil, or_false]

/-- The graph has each of its nodes once, however many edges meet there. -/
theorem nodup_nodes (index : ProducerIndex) : index.nodes.Nodup :=
  Uid.nodup_of_ascends (Uid.ascending_ascends _)

end ProducerIndex

/-- The index of a recording holds its edges. -/
theorem DependencyGraph.holds_after (steps : List Step) :
    (after steps).producers.Holds (edges steps) := by
  induction steps using List.reverseRecOn with
  | nil => exact .empty
  | append_singleton steps step ih =>
    rw [after_concat, edges_concat]
    cases step with
    | edge producer consumer => exact ih.record producer consumer
    | commit uid opcode opClass =>
      rw [Step.edge?, Option.toList_none, List.append_nil]
      exact ih

namespace Dataflow

/-- The counters of the edges are those of the recorded edges. -/
structure CountsEdges (dataflow : Dataflow) (recorded : List Edge) : Prop where
  edges : dataflow.edges = recorded.length
  trueEdges : dataflow.trueEdges = recorded.countP (·.kinds.raw)
  antiEdges : dataflow.antiEdges = recorded.countP (·.kinds.war)
  outputEdges : dataflow.outputEdges = recorded.countP (·.kinds.waw)
  controlEdges : dataflow.controlEdges = recorded.countP (·.kinds.control)
  memoryEdges : dataflow.memoryEdges = recorded.countP (·.kinds.memory)

theorem CountsEdges.empty : CountsEdges .empty [] :=
  ⟨rfl, rfl, rfl, rfl, rfl, rfl⟩

/-- An edge counts once, and once for each of its kinds. -/
theorem CountsEdges.countEdge {dataflow : Dataflow} {recorded : List Edge}
    (counts : dataflow.CountsEdges recorded) (edge : Edge) :
    (dataflow.countEdge edge.kinds).CountsEdges (recorded ++ [edge]) := by
  have concat (carries : Edge → Bool) : (recorded ++ [edge]).countP carries =
      recorded.countP carries + (carries edge).toNat := by
    cases carried : carries edge <;> simp [carried]
  constructor
  · rw [List.length_append, List.length_singleton, ← counts.edges]
    rfl
  all_goals rw [concat]
  · rw [← counts.trueEdges]
    rfl
  · rw [← counts.antiEdges]
    rfl
  · rw [← counts.outputEdges]
    rfl
  · rw [← counts.controlEdges]
    rfl
  · rw [← counts.memoryEdges]
    rfl

/-- Counting some edges, one after the other. -/
theorem countsEdges_foldl (recorded : List Edge) :
    (recorded.foldl (fun dataflow edge => dataflow.countEdge edge.kinds) empty).CountsEdges
      recorded := by
  induction recorded using List.reverseRecOn with
  | nil => exact .empty
  | append_singleton recorded edge ih =>
    rw [List.foldl_append]
    exact ih.countEdge edge

/-- The statistics reduced to the counters of the edges. -/
def edgeCounts (dataflow : Dataflow) : Dataflow :=
  { empty with
    edges := dataflow.edges, trueEdges := dataflow.trueEdges, antiEdges := dataflow.antiEdges
    outputEdges := dataflow.outputEdges, controlEdges := dataflow.controlEdges
    memoryEdges := dataflow.memoryEdges }

end Dataflow

namespace Engine

open DependencyGraph (edges)

/-- The edge that a call records. -/
def Call.dependency? : Call → Option Edge
  | .event (.dependency edge) => some edge
  | _ => none

/-- The edges that a run records, in their order and with their repeats. -/
def dependencies (calls : List Call) : List Edge :=
  calls.filterMap Call.dependency?

theorem edges_recording (calls : List Call) :
    edges (recording calls) =
      (dependencies calls).map fun edge => (edge.producer, edge.consumer) := by
  have single (call : Call) : call.step?.bind DependencyGraph.Step.edge? =
      call.dependency?.map fun edge => (edge.producer, edge.consumer) := by
    cases call with
    | event event => cases event <;> rfl
    | _ => rfl
  rw [edges, recording, dependencies, List.filterMap_filterMap, List.map_filterMap]
  exact List.filterMap_congr fun call _ => single call

/-- No call but the recording of an edge moves the counters of the edges. -/
theorem edgeCounts_receive (engine : Engine) (call : Call) :
    (engine.receive call).summary.dataflow.edgeCounts =
      call.dependency?.elim engine.summary.dataflow.edgeCounts
        fun edge => engine.summary.dataflow.edgeCounts.countEdge edge.kinds := by
  cases call with
  | event event =>
    cases event with
    | cycleEnd cycle sample => cases sample <;> rfl
    | _ => rfl
  | _ => rfl

theorem countsEdges_after (config : Config) (calls : List Call) :
    (after config calls).summary.dataflow.CountsEdges (dependencies calls) := by
  have moved : (after config calls).summary.dataflow.edgeCounts =
      (dependencies calls).foldl (fun dataflow edge => dataflow.countEdge edge.kinds) .empty :=
    foldl_part (fun engine => engine.summary.dataflow.edgeCounts) edgeCounts_receive (start config)
      calls
  have counts := Dataflow.countsEdges_foldl (dependencies calls)
  rw [← moved] at counts
  exact ⟨counts.edges, counts.trueEdges, counts.antiEdges, counts.outputEdges, counts.controlEdges,
    counts.memoryEdges⟩

/-- After any run, the producers of a consumer are those of the recorded edges into it, in their
order and with their repeats. All lists of producers together are as long as there were edges, which
is what the index and the summary count, and there is a list for each distinct consumer. The graph
has the ends of the recorded edges and the distinct edges, each of them once; every end was seen;
and each counter of a kind tells the number of the edges of that kind. -/
theorem recorded_edges_everywhere (config : Config) (calls : List Call) :
    let engine := after config calls
    let recorded := dependencies calls
    let index := engine.graph.producers
    (∀ consumer, index.producersOf consumer =
      (recorded.filter (·.consumer = consumer)).map (·.producer)) ∧
    (index.lists.entries.map fun (_, producers) => producers.length).sum = recorded.length ∧
    index.edgeCount = recorded.length ∧
    index.consumerCount = (recorded.map (·.consumer)).dedup.length ∧
    (index.nodes.Nodup ∧ ∀ uid, uid ∈ index.nodes ↔
      ∃ edge ∈ recorded, uid = edge.producer ∨ uid = edge.consumer) ∧
    (index.edges.Nodup ∧ ∀ producer consumer, (producer, consumer) ∈ index.edges ↔
      ∃ edge ∈ recorded, edge.producer = producer ∧ edge.consumer = consumer) ∧
    (∀ edge ∈ recorded, engine.graph.depths.contains edge.producer = true ∧
      engine.graph.depths.contains edge.consumer = true) ∧
    engine.summary.dataflow.CountsEdges recorded := by
  intro engine recorded index
  have graph : engine.graph = DependencyGraph.after (recording calls) := graph_after config calls
  have holds : index.Holds (recorded.map fun edge => (edge.producer, edge.consumer)) := by
    rw [← edges_recording, show index = engine.graph.producers from rfl, graph]
    exact DependencyGraph.holds_after (recording calls)
  have producers (consumer : Uid) : index.producersOf consumer =
      (recorded.filter (·.consumer = consumer)).map (·.producer) := by
    rw [show index = engine.graph.producers from rfl, graph, DependencyGraph.producersOf_after,
      edges_recording]
    simp [List.filter_map, Function.comp_def, recorded]
  have linked (producer consumer : Uid) : producer ∈ index.producersOf consumer ↔
      ∃ edge ∈ recorded, edge.producer = producer ∧ edge.consumer = consumer := by
    rw [producers]
    simp [and_assoc, and_comm]
  refine ⟨producers, ?_, ?_, ?_, ⟨index.nodup_nodes, fun uid => ?_⟩, ⟨index.nodup_edges, ?_⟩, ?_,
    countsEdges_after config calls⟩
  · exact holds.listed.trans (List.length_map _)
  · exact holds.edgeCount.trans (List.length_map _)
  · rw [holds.consumerCount, List.map_map]
    rfl
  · rw [ProducerIndex.mem_nodes_iff]
    simp only [linked]
    constructor
    · rintro ⟨_, _, ⟨edge, member, rfl, rfl⟩, isEnd⟩
      exact ⟨edge, member, isEnd⟩
    · rintro ⟨edge, member, isEnd⟩
      exact ⟨_, _, ⟨edge, member, rfl, rfl⟩, isEnd⟩
  · intro producer consumer
    rw [ProducerIndex.mem_edges_iff]
    exact linked producer consumer
  · intro edge member
    rw [graph]
    apply DependencyGraph.contains_of_edge
    rw [edges_recording]
    exact List.mem_map_of_mem member

-- The edge from 1 to 2 comes twice, the second time with two kinds, and 2 is a consumer once.
example :
    let engine := after .standard [.event (.dependency ⟨⟨1⟩, ⟨2⟩, .none⟩),
      .event (.dependency ⟨⟨2⟩, ⟨2⟩, .trueOnly⟩),
      .event (.dependency ⟨⟨1⟩, ⟨2⟩, ⟨true, true, false, false, false⟩⟩)]
    engine.graph.producers.producersOf ⟨2⟩ = [⟨1⟩, ⟨2⟩, ⟨1⟩] ∧
      engine.graph.producers.edges = [(⟨1⟩, ⟨2⟩), (⟨2⟩, ⟨2⟩)] ∧
      engine.graph.producers.consumerCount = 1 ∧ engine.summary.dataflow.trueEdges = 2 := by cbv

end Engine

end AccelProfile
