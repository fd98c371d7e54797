import Mathlib.Logic.Equiv.Defs
import AccelProfile.Proofs.HistogramCounts
import AccelProfile.Proofs.MarkingRuns

/-!
# Graphs under other names

An identifier tells instructions apart and says nothing else. When all identifiers are renamed,
each to one of its own, a graph becomes the same graph under other names: recording and
committing under the new names gives the renamed graph, every depth is where it was, and so is
the largest one.

Two places look at more of an identifier than whether it is the same. The critical path is kept
in ascending order of its members, and it is broken down by going through them in that order.
A renaming can turn the order around. But a list in ascending order is determined by its
members, and counts do not depend on the order in which they are taken: so the path of the
renamed graph has the renamed members, and nothing else of it differs.
-/

namespace AccelProfile

namespace FirstSeen

variable {κ α β : Type}

theorem eq_of_entries_eq {left right : FirstSeen κ α} (same : left.entries = right.entries) :
    left = right := by
  cases left
  cases right
  simpa using same

/-- The table under other names for its keys, with each value changed. -/
def transport (rename : Equiv.Perm κ) (change : α → β) (table : FirstSeen κ α) :
    FirstSeen κ β where
  entries := table.entries.map (Prod.map rename change)
  distinct := by
    have keys : (table.entries.map (Prod.map rename change)).map Prod.fst =
        (table.entries.map Prod.fst).map rename := by simp
    rw [keys]
    exact table.distinct.map rename.injective

variable [DecidableEq κ] (rename : Equiv.Perm κ) (change : α → β)

theorem lookup_map (key : κ) (entries : List (κ × α)) :
    (entries.map (Prod.map rename change)).lookup (rename key) =
      (entries.lookup key).map change := by
  induction entries with
  | nil => rfl
  | cons head tail ih =>
    obtain ⟨first, value⟩ := head
    simp only [List.map_cons, Prod.map_apply, lookup_cons, ih, rename.injective.eq_iff]
    split <;> rfl

theorem updateEntries_map {before : Option α → α} {behind : Option β → β}
    (commutes : ∀ known, behind (known.map change) = change (before known)) (key : κ)
    (entries : List (κ × α)) :
    updateEntries (rename key) behind (entries.map (Prod.map rename change)) =
      (updateEntries key before entries).map (Prod.map rename change) := by
  induction entries with
  | nil => simp [updateEntries, ← commutes]
  | cons head tail ih =>
    obtain ⟨first, value⟩ := head
    by_cases same : first = key
    · simp [updateEntries, same, ← commutes]
    · simp [updateEntries, same, ih]

/-- A key has under its new name what it had before. -/
theorem get?_transport (table : FirstSeen κ α) (key : κ) :
    (table.transport rename change).get? (rename key) = (table.get? key).map change :=
  lookup_map rename change key table.entries

/-- Updating a key under its new name is updating it before. -/
theorem update_transport {before : Option α → α} {behind : Option β → β}
    (commutes : ∀ known, behind (known.map change) = change (before known))
    (table : FirstSeen κ α) (key : κ) :
    (table.transport rename change).update (rename key) behind =
      (table.update key before).transport rename change :=
  eq_of_entries_eq (updateEntries_map rename change commutes key table.entries)

end FirstSeen

namespace DepthTable

/-- The table under other identifiers. -/
def rename (names : Equiv.Perm Uid) (table : DepthTable) : DepthTable :=
  ⟨table.records.transport names id, table.maxDepth⟩

variable (names : Equiv.Perm Uid) (table : DepthTable) (uid : Uid)

@[simp]
theorem maxDepth_rename : (table.rename names).maxDepth = table.maxDepth :=
  rfl

@[simp]
theorem record?_rename : (table.rename names).record? (names uid) = table.record? uid := by
  have found := table.records.get?_transport names id uid
  rwa [Option.map_id_fun, id] at found

@[simp]
theorem depth_rename : (table.rename names).depth (names uid) = table.depth uid := by
  simp only [depth, record?_rename]

@[simp]
theorem contains_rename : (table.rename names).contains (names uid) = table.contains uid := by
  simp only [contains, record?_rename]

/-- Records that change alike before and under the new identifiers stay renamed. -/
theorem update_rename (change : Option InstructionRecord → InstructionRecord) :
    (table.rename names).records.update (names uid) change =
      (table.records.update uid change).transport names id := by
  apply FirstSeen.update_transport
  intro known
  simp

theorem ensure_rename :
    (table.rename names).ensure (names uid) = (table.ensure uid).rename names := by
  simp only [ensure, update_rename, contains_rename, depth_rename, maxDepth_rename]
  rfl

theorem raise_rename (candidate : Nat) :
    (table.rename names).raise (names uid) candidate =
      ((table.raise uid candidate).1.rename names, (table.raise uid candidate).2) := by
  simp only [raise, depth_rename, update_rename, maxDepth_rename]
  split
  · rfl
  · split <;> rfl

theorem commit_rename (opcode : Opcode) (opClass : OpClass) :
    (table.rename names).commit (names uid) opcode opClass =
      (table.commit uid opcode opClass).rename names := by
  simp only [commit, ensure_rename, update_rename]
  rfl

theorem histogram_rename : (table.rename names).histogram = table.histogram := by
  simp [histogram, toList, rename, FirstSeen.transport, Function.comp_def]

theorem deepest_rename : (table.rename names).deepest = table.deepest.map names := by
  simp only [deepest, toList, rename, FirstSeen.transport, List.filter_map, List.map_map]
  rfl

end DepthTable

namespace ProducerIndex

/-- The index under other identifiers. -/
def rename (names : Equiv.Perm Uid) (index : ProducerIndex) : ProducerIndex :=
  ⟨index.lists.transport names (List.map names), index.edgeCount⟩

variable (names : Equiv.Perm Uid) (index : ProducerIndex)

theorem record_rename (producer consumer : Uid) :
    (index.rename names).record (names producer) (names consumer) =
      (index.record producer consumer).rename names := by
  have lists : (index.rename names).lists.update (names consumer)
      (fun known => known.getD [] ++ [names producer]) =
      (index.lists.update consumer fun known => known.getD [] ++ [producer]).transport names
        (List.map names) := by
    apply FirstSeen.update_transport
    intro known
    cases known <;> simp
  simp only [record, lists]
  rfl

theorem producersOf_rename (consumer : Uid) :
    (index.rename names).producersOf (names consumer) =
      (index.producersOf consumer).map names := by
  have lists := index.lists.get?_transport names (List.map names) consumer
  simp only [producersOf, rename, lists]
  cases index.lists.get? consumer <;> rfl

end ProducerIndex

namespace DependencyGraph

/-- The graph under other identifiers. -/
def rename (names : Equiv.Perm Uid) (graph : DependencyGraph) : DependencyGraph :=
  ⟨graph.depths.rename names, graph.producers.rename names⟩

variable (names : Equiv.Perm Uid) (graph : DependencyGraph)

/-- An edge between the new names gives the renamed graph, and tells the same largest depth. -/
theorem record_rename (producer consumer : Uid) :
    (graph.rename names).record (names producer) (names consumer) =
      ((graph.record producer consumer).1.rename names,
        (graph.record producer consumer).2) := by
  simp only [record, rename, DepthTable.ensure_rename, DepthTable.depth_rename,
    DepthTable.raise_rename, ProducerIndex.record_rename]

theorem commit_rename (uid : Uid) (opcode : Opcode) (opClass : OpClass) :
    (graph.rename names).commit (names uid) opcode opClass =
      (graph.commit uid opcode opClass).rename names := by
  simp only [commit, rename, DepthTable.commit_rename]

end DependencyGraph

namespace Marking

variable (names : Equiv.Perm Uid) (graph : DependencyGraph)

theorem below_rename (uid : Uid) :
    below (graph.rename names) (names uid) = (below graph uid).map names := by
  simp only [below, DependencyGraph.rename, DepthTable.depth_rename,
    ProducerIndex.producersOf_rename]
  split
  · rfl
  · simp [List.filter_map, Function.comp_def]

/-- What is below an instruction is told by the old names. -/
theorem mem_below_rename (producer consumer : Uid) :
    producer ∈ below (graph.rename names) consumer ↔
      names.symm producer ∈ below graph (names.symm consumer) := by
  have renamed := below_rename names graph (names.symm consumer)
  rw [Equiv.apply_symm_apply] at renamed
  rw [renamed, List.mem_map]
  constructor
  · rintro ⟨member, inside, rfl⟩
    rwa [Equiv.symm_apply_apply]
  · intro inside
    exact ⟨_, inside, Equiv.apply_symm_apply _ _⟩

/-- And so is what one comes down to from a deepest instruction. -/
theorem reached_rename (uid : Uid) :
    Reached (graph.rename names) uid ↔ Reached graph (names.symm uid) := by
  have deepest (uid : Uid) : uid ∈ (graph.rename names).depths.deepest ↔
      names.symm uid ∈ graph.depths.deepest := by
    rw [DependencyGraph.rename, DepthTable.deepest_rename]
    constructor
    · intro seed
      obtain ⟨member, inside, rfl⟩ := List.mem_map.1 seed
      rwa [Equiv.symm_apply_apply]
    · intro seed
      exact List.mem_map.2 ⟨_, seed, Equiv.apply_symm_apply _ _⟩
  constructor
  · rintro ⟨top, seed, climb⟩
    refine ⟨names.symm top, (deepest top).1 seed, ?_⟩
    exact climb.lift names.symm fun _ _ step => (mem_below_rename names graph _ _).1 step
  · rintro ⟨top, seed, climb⟩
    refine ⟨names top, (deepest _).2 (by rwa [Equiv.symm_apply_apply]), ?_⟩
    have onward (producer consumer : Uid) (step : producer ∈ below graph consumer) :
        names producer ∈ below (graph.rename names) (names consumer) := by
      rw [below_rename]
      exact List.mem_map_of_mem step
    have lifted : Relation.ReflTransGen
        (fun producer consumer => producer ∈ below (graph.rename names) consumer)
        (names (names.symm uid)) (names top) := climb.lift names onward
    rwa [Equiv.apply_symm_apply] at lifted

end Marking

namespace CriticalPath

/-- The members of the critical path of any graph: there are none while the largest depth is
zero, and else those below a deepest instruction. -/
theorem mem_mark_iff_reached (graph : DependencyGraph) (uid : Uid) :
    uid ∈ mark graph ↔ graph.depths.maxDepth ≠ 0 ∧ Marking.Reached graph uid := by
  by_cases zero : graph.depths.maxDepth = 0
  · simp [mark, zero]
  · have kept := (Marking.invariant_start graph).run (Marking.finish_is_run _ _)
    rw [mark, if_neg zero]
    exact (kept.mem_marked_iff rfl uid).trans (by simp [zero])

theorem mark_ascends (graph : DependencyGraph) :
    (mark graph).Pairwise fun earlier later => earlier.toNat < later.toNat := by
  by_cases zero : graph.depths.maxDepth = 0
  · rw [mark, if_pos zero]
    exact List.Pairwise.nil
  · rw [mark, if_neg zero]
    exact ((Marking.invariant_start graph).run (Marking.finish_is_run _ _)).ascending

/-- The path with its members under other identifiers. -/
def rename (names : Uid → Uid) (path : CriticalPath) : CriticalPath :=
  { path with members := Uid.ascending (path.members.map names) }

/-- Only the names of its members matter to a path. -/
theorem rename_congr {names other : Uid → Uid} {path : CriticalPath}
    (agree : ∀ uid ∈ path.members, names uid = other uid) :
    path.rename names = path.rename other := by
  simp only [rename, List.map_congr_left agree]

variable (names : Equiv.Perm Uid) (graph : DependencyGraph)

/-- The renamed graph has the renamed members, in their own ascending order. -/
theorem mark_rename :
    mark (graph.rename names) = Uid.ascending ((mark graph).map names) := by
  refine Uid.ascending_ext (mark_ascends _) (Uid.ascending_ascends _) fun uid => ?_
  rw [Uid.mem_ascending, mem_mark_iff_reached, Marking.reached_rename, List.mem_map]
  constructor
  · intro reached
    exact ⟨names.symm uid, (mem_mark_iff_reached graph _).2 reached,
      Equiv.apply_symm_apply _ _⟩
  · rintro ⟨member, marked, rfl⟩
    rw [Equiv.symm_apply_apply]
    exact (mem_mark_iff_reached graph member).1 marked

/-- The members of the renamed graph are the renamed members in another order. -/
theorem mark_rename_perm : (mark (graph.rename names)).Perm ((mark graph).map names) := by
  have distinct : ((mark graph).map names).Nodup :=
    (Uid.nodup_of_ascends (mark_ascends graph)).map names.injective
  apply (List.perm_ext_iff_of_nodup (Uid.nodup_of_ascends (mark_ascends _)) distinct).2
  intro uid
  rw [mark_rename, Uid.mem_ascending]

/-- The path of the renamed graph is the path with its members renamed. -/
theorem ofGraph_rename : ofGraph (graph.rename names) = (ofGraph graph).rename names := by
  have counted (property : InstructionRecord → Bool) :
      countMembers (graph.rename names) (mark (graph.rename names)) property =
        countMembers graph (mark graph) property := by
    simp only [countMembers, (mark_rename_perm names graph).countP_eq, List.countP_map]
    simp [Function.comp_def, DependencyGraph.rename]
  have opcodes : (mark (graph.rename names)).filterMap (fun uid =>
      (((graph.rename names).depths.record? uid).bind (·.opcode)).map Opcode.toNat) |>.Perm
      ((mark graph).filterMap fun uid =>
        ((graph.depths.record? uid).bind (·.opcode)).map Opcode.toNat) := by
    refine ((mark_rename_perm names graph).filterMap _).trans (List.Perm.of_eq ?_)
    simp [List.filterMap_map, DependencyGraph.rename]
  have histogram : (graph.rename names).depths.histogram = graph.depths.histogram :=
    graph.depths.histogram_rename names
  have maxDepth : (graph.rename names).depths.maxDepth = graph.depths.maxDepth := rfl
  simp only [ofGraph, rename, counted, Histogram.ofList_perm opcodes, histogram, maxDepth]
  rw [mark_rename]

/-- A path has as many members under other names. -/
theorem instructionCount_rename :
    ((ofGraph graph).rename names).instructionCount = (ofGraph graph).instructionCount := by
  rw [← ofGraph_rename]
  exact (mark_rename_perm names graph).length_eq.trans (List.length_map names)

end CriticalPath

end AccelProfile
