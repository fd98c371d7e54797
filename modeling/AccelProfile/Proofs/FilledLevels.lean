import AccelProfile.Proofs.AcyclicGraphs
import AccelProfile.Proofs.EngineCalls
import AccelProfile.Proofs.HistogramCounts
import AccelProfile.Proofs.StrandedMembers

/-!
# Levels without a gap

An instruction leaves its old level when it is raised, and may have been the only one there. If
the graph has no cycle, the level is filled all the same: an instruction deeper than a leaf was
raised by a producer that stands at most one level below it, or has got deeper since. So from any
instruction one comes down to every level below it by going from producer to producer, however the
edges came in; and without a cycle one cannot go on for ever.

The histogram of an analysis then has an entry for each level from one to the length of the path
and for no other. There are at least as many instructions as levels, and the number of instructions
for each level is at least one.
-/

namespace AccelProfile

namespace DepthTable

/-- The number of instructions at a level. -/
def heldAt (table : DepthTable) (level : Nat) : Nat :=
  table.toList.countP fun (_, record) => record.depth = level

theorem heldAt_eq_count (table : DepthTable) (level : Nat) :
    table.heldAt level = (table.toList.map fun (_, record) => record.depth).count level := by
  simp only [List.count, List.countP_map, Function.comp_def, heldAt, beq_eq_decide]

/-- A level holds some instructions exactly if an instruction was seen there. -/
theorem heldAt_pos_iff (table : DepthTable) (level : Nat) :
    0 < table.heldAt level ↔ ∃ uid, table.contains uid = true ∧ table.depth uid = level := by
  have listed (uid : Uid) : (table.contains uid = true ∧ table.depth uid = level) ↔
      ∃ record, (uid, record) ∈ table.toList ∧ record.depth = level := by
    simp only [toList, ← FirstSeen.get?_eq_some_iff]
    cases known : table.record? uid <;> simp_all [contains, depth, record?]
  simp only [listed, heldAt_eq_count, List.count_pos_iff, List.mem_map, Prod.exists]

/-- The histogram counts the instructions at each level that holds any. -/
theorem get?_histogram (table : DepthTable) (level : Nat) :
    table.histogram.get? level =
      if 0 < table.heldAt level then some (table.heldAt level) else none := by
  simp only [histogram, Histogram.get?_ofList, heldAt_eq_count, List.count_pos_iff]

theorem total_histogram (table : DepthTable) : table.histogram.total = table.size := by
  rw [histogram, Histogram.total_ofList, List.length_map]
  rfl

end DepthTable

namespace DependencyGraph

variable {steps : List Step}

/-- Without a cycle, the levels below an instruction are held, each by one of the instructions
that it comes down to. -/
theorem Acyclic.exists_at_level (acyclic : Acyclic (edges steps)) {uid : Uid}
    (seen : (after steps).depths.contains uid = true) {level : Nat} (leaf : leafDepth ≤ level)
    (below : level ≤ (after steps).depths.level uid) :
    ∃ other, (after steps).depths.contains other = true ∧
      (after steps).depths.depth other = level := by
  induction uid using acyclic.wellFounded.induction with
  | _ uid ih =>
    rcases Nat.eq_or_lt_of_le below with same | lower
    · exact ⟨uid, seen, (depth_of_contains steps seen).trans same.symm⟩
    · have deep : leafDepth < (after steps).depths.level uid := Nat.lt_of_le_of_lt leaf lower
      obtain ⟨producer, behind, raised⟩ := exists_raisedBy steps uid deep
      obtain ⟨before, recorded⟩ := raised.recorded
      have member : (producer, uid) ∈ edges steps := by simp [recorded]
      have reaches := raised.reaches
      exact ih producer member (contains_of_edge steps member).1 (by omega)

/-- Without a cycle, the levels that are held are those from one to the largest depth. -/
theorem Acyclic.held_iff (acyclic : Acyclic (edges steps)) (level : Nat) :
    (∃ uid, (after steps).depths.contains uid = true ∧ (after steps).depths.depth uid = level) ↔
      1 ≤ level ∧ level ≤ (after steps).depths.maxDepth := by
  have consistent := consistent_after steps
  constructor
  · rintro ⟨uid, seen, rfl⟩
    rw [depth_of_contains steps seen]
    exact ⟨consistent.leaf_le uid, consistent.bounded uid seen⟩
  · rintro ⟨leaf, within⟩
    rcases consistent.attained with zero | ⟨uid, seen, deepest⟩
    · omega
    · exact acyclic.exists_at_level seen leaf (deepest ▸ within)

/-- Without a cycle there are at least as many instructions as levels: each level takes one. -/
theorem Acyclic.maxDepth_le_size (acyclic : Acyclic (edges steps)) :
    (after steps).depths.maxDepth ≤ (after steps).depths.size := by
  have held : List.range' 1 (after steps).depths.maxDepth ⊆
      ((after steps).depths.toList.map fun (_, record) => record.depth) := by
    intro level inside
    rw [List.mem_range'_1] at inside
    have filled := (DepthTable.heldAt_pos_iff _ level).2 ((acyclic.held_iff level).2 (by omega))
    rwa [DepthTable.heldAt_eq_count, List.count_pos_iff] at filled
  have fewer := (List.subperm_of_subset List.nodup_range' held).length_le
  rwa [List.length_range', List.length_map] at fewer

end DependencyGraph

namespace CriticalPath

open DependencyGraph (Step Acyclic after edges consistent_after)

/-- An analysis of which every level is filled. -/
structure FillsLevels (path : CriticalPath) (depths : DepthTable) : Prop where
  /-- The levels that are held by instructions are those from one to the length of the path. -/
  held : ∀ level, (∃ uid, depths.contains uid = true ∧ depths.depth uid = level) ↔
    1 ≤ level ∧ level ≤ path.length
  /-- The histogram tells how many instructions are at each of these levels, and has no other. -/
  counted : ∀ level, path.depthHistogram.get? level =
    if 1 ≤ level ∧ level ≤ path.length then some (depths.heldAt level) else none
  /-- The counts of the histogram add up to the number of instructions. -/
  total : path.depthHistogram.total = depths.size
  /-- There are no fewer instructions than levels. -/
  covered : path.length ≤ depths.size
  /-- There is a level as soon as there is an instruction, so the average divides by a number
  that is not zero and not above the one that it divides. -/
  average : if depths.size = 0 then path.avgReady = none else 0 < path.length ∧
    path.avgReady = some (depths.size.toFloat / path.length.toFloat)

/-- The analysis of a recording without a cycle fills its levels. -/
theorem ofGraph_fillsLevels {steps : List Step} (acyclic : Acyclic (edges steps)) :
    (ofGraph (after steps)).FillsLevels (after steps).depths where
  held := acyclic.held_iff
  counted level := by
    have held : 0 < (after steps).depths.heldAt level ↔
        1 ≤ level ∧ level ≤ (after steps).depths.maxDepth :=
      (DepthTable.heldAt_pos_iff _ level).trans (acyclic.held_iff level)
    exact (DepthTable.get?_histogram _ level).trans (if_congr held rfl rfl)
  total := DepthTable.total_histogram _
  covered := acyclic.maxDepth_le_size
  average := by
    have levels := (consistent_after steps).maxDepth_eq_zero_iff
    simp only [ofGraph, DepthTable.total_histogram]
    split
    · next unused => rw [if_pos (levels.2 unused)]
    · next used =>
      have leveled : (after steps).depths.maxDepth ≠ 0 := fun zero => used (levels.1 zero)
      exact ⟨Nat.pos_of_ne_zero leveled, if_neg leveled⟩

end CriticalPath

namespace Engine

open DependencyGraph (Acyclic edges)

/-- After a run whose recorded edges have no cycle, in whatever order they came in and with all
other calls anywhere between them, the levels have no gap: those that are held by instructions are
the ones from one to the largest depth, and the histogram has these. Its counts add up to the
number of instructions, of which there are no fewer than levels. -/
theorem levels_without_gap (config : Config) (calls : List Call)
    (acyclic : Acyclic (edges (recording calls))) :
    let engine := (after config calls).analyse
    ∃ path, engine.path = some path ∧ path.length = engine.graph.depths.maxDepth ∧
      path.depthHistogram = engine.graph.depths.histogram ∧
      path.FillsLevels engine.graph.depths := by
  intro engine
  have fills := CriticalPath.ofGraph_fillsLevels acyclic
  rw [← graph_after config calls] at fills
  exact ⟨_, rfl, rfl, rfl, fills⟩

/-- Two ways down from 4, the longer one made longer by a late edge into 1, and a commit of an
instruction that no edge leads to. -/
def raggedRun : List Call :=
  [.event (.dependency ⟨⟨1⟩, ⟨2⟩, .trueOnly⟩), .event (.commit ⟨3⟩ ⟨7⟩ true false),
    .event (.dependency ⟨⟨2⟩, ⟨4⟩, .trueOnly⟩), .analyse,
    .event (.dependency ⟨⟨0⟩, ⟨1⟩, .trueOnly⟩), .event (.dependency ⟨⟨1⟩, ⟨4⟩, .trueOnly⟩)]

/-- The ragged run has three levels, with two, two and one of its five instructions. -/
theorem ragged_run_fills_levels :
    Acyclic (edges (recording raggedRun)) ∧
    let engine := (after .standard raggedRun).analyse
    engine.graph.depths.histogram.entries = [(1, 2), (2, 2), (3, 1)] ∧
    ∃ path, engine.path = some path ∧ path.length = 3 ∧ path.FillsLevels engine.graph.depths := by
  have acyclic : Acyclic (edges (recording raggedRun)) :=
    DependencyGraph.acyclic_of_isAcyclic (by decide)
  obtain ⟨path, found, length, -, fills⟩ := levels_without_gap .standard raggedRun acyclic
  exact ⟨acyclic, by decide, path, found, length.trans (by decide), fills⟩

-- An edge from an instruction to itself lifts it from the only level below.
example :
    (after .standard [.event (.dependency ⟨⟨1⟩, ⟨1⟩, .trueOnly⟩)]).graph.depths.histogram.entries =
      [(2, 1)] := by decide

end Engine

end AccelProfile
