import AccelProfile.DependencyGraph
/-!
# The critical path

The instructions that decide how long a run takes at least: those on a chain of
dependencies of the largest depth. Not one chain is picked; all tied ones are marked. The
marking starts at the deepest instructions and goes from each marked instruction to those
of its producers that are exactly one level shallower. An instruction can come up more
than once but is marked once, and only instructions that were seen have anything below
them, so the marking ends whatever the graph looks like; a cycle among the edges only cuts
a branch short.
-/

namespace AccelProfile

/-- How far a marking has come. -/
structure Marking where
  /-- The instructions marked so far, in ascending order. -/
  marked : List Uid
  /-- The instructions still to be visited, the next one first. -/
  pending : List Uid

namespace Marking

/-- The marking of a graph before any visit: its deepest instructions are pending, the one
    seen last is the next. -/
def start (graph : DependencyGraph) : Marking :=
  ⟨[], graph.depths.deepest.reverse⟩

/-- The producers of an instruction that are exactly one level shallower. There is nothing
    below a leaf. -/
def below (graph : DependencyGraph) (uid : Uid) : List Uid :=
  if graph.depths.depth uid ≤ leafDepth then []
  else (graph.producers.producersOf uid).filter fun producer =>
    graph.depths.depth producer = graph.depths.depth uid - 1

/-- Visits an instruction while others stay pending. One that is marked is passed over; a
    new one is marked, and what is below it is pending from then on. -/
def visit (graph : DependencyGraph) (marked : List Uid) (uid : Uid) (others : List Uid) :
    Marking :=
  if uid ∈ marked then ⟨marked, others⟩
  else ⟨Uid.insert uid marked, (below graph uid).reverse ++ others⟩

/-- The number of instructions that were seen and are not marked. -/
def unmarked (graph : DependencyGraph) (marked : List Uid) : Nat :=
  graph.depths.records.keys.countP (· ∉ marked)

/-- What is left to do: first the instructions that can still be marked, then the visits
    that are pending. -/
def remaining (graph : DependencyGraph) (marking : Marking) : Nat × Nat :=
  (unmarked graph marking.marked, marking.pending.length)

/-- Nothing is below an instruction that was never seen. -/
theorem below_unseen (graph : DependencyGraph) (uid : Uid)
    (unseen : graph.depths.contains uid = false) : below graph uid = [] := by
  simp [below, DepthTable.depth_eq_level, unseen]

/-- Marking an instruction leaves no more unmarked ones among any instructions. -/
theorem countP_insert_le (marked : List Uid) (uid : Uid) (uids : List Uid) :
    uids.countP (· ∉ Uid.insert uid marked) ≤ uids.countP (· ∉ marked) := by
  apply List.countP_mono_left
  intro other _ outside
  simp only [Uid.mem_insert, not_or, decide_eq_true_eq] at outside ⊢
  exact outside.2

/-- Marking an instruction that was seen leaves fewer of them unmarked. -/
theorem unmarked_insert_lt (graph : DependencyGraph) (marked : List Uid) (uid : Uid)
    (seen : graph.depths.contains uid = true) (new : uid ∉ marked) :
    unmarked graph (Uid.insert uid marked) < unmarked graph marked := by
  have listed : uid ∈ graph.depths.records.keys := (FirstSeen.mem_keys_iff _ uid).2 seen
  obtain ⟨before, after, split⟩ := List.append_of_mem listed
  have beforeShrinks := countP_insert_le marked uid before
  have afterShrinks := countP_insert_le marked uid after
  rw [unmarked, unmarked, split, List.countP_append, List.countP_append,
    List.countP_cons_of_neg (by simp [Uid.mem_insert]),
    List.countP_cons_of_pos (by simpa using new)]
  omega

/-- Every visit leaves less to do: it marks an instruction that was seen, or it takes a
    visit off and adds none. -/
theorem visit_decreases (graph : DependencyGraph) (marked : List Uid) (uid : Uid)
    (others : List Uid) :
    Prod.Lex (· < ·) (· < ·) (remaining graph (visit graph marked uid others))
      (remaining graph ⟨marked, uid :: others⟩) := by
  by_cases known : uid ∈ marked
  · simp only [visit, known, if_true, remaining]
    exact Prod.Lex.right _ (Nat.lt_succ_self _)
  · simp only [visit, known, if_false, remaining]
    cases seen : graph.depths.contains uid with
    | true => exact Prod.Lex.left _ _ (unmarked_insert_lt graph marked uid seen known)
    | false =>
      rw [below_unseen graph uid seen]
      rcases Nat.lt_or_eq_of_le (countP_insert_le marked uid graph.depths.records.keys) with
        fewer | same
      · exact Prod.Lex.left _ _ fewer
      · rw [unmarked, unmarked, same]
        exact Prod.Lex.right _ (Nat.lt_succ_self _)

/-- Visits what is pending until nothing is, and gives what is marked then. -/
def finish (graph : DependencyGraph) : Marking → List Uid
  | ⟨marked, []⟩ => marked
  | ⟨marked, uid :: others⟩ => finish graph (visit graph marked uid others)
termination_by marking => remaining graph marking
decreasing_by exact visit_decreases graph marked uid others

end Marking

/-- What one analysis of a run finds. -/
structure CriticalPath where
  /-- The largest depth at the time of the analysis. -/
  length : Nat
  /-- The marked instructions in ascending order. -/
  members : List Uid
  /-- How many instructions have each depth. -/
  depthHistogram : Histogram
  /-- Instructions per level; absent for an empty run. -/
  avgReady : Option Float
  loads : Nat
  stores : Nat
  /-- The marked instructions that compute. -/
  computes : Nat
  /-- How many marked instructions committed under each opcode. -/
  byOpcode : Histogram
  deriving Inhabited

namespace CriticalPath

/-- All instructions on a chain of the largest depth, in ascending order. -/
def mark (graph : DependencyGraph) : List Uid :=
  if graph.depths.maxDepth = 0 then [] else Marking.finish graph (.start graph)

/-- The number of members whose record has a property. -/
def countMembers (graph : DependencyGraph) (members : List Uid)
    (property : InstructionRecord → Bool) : Nat :=
  members.countP fun uid => (graph.depths.record? uid).any property

/-- The analysis of a run. -/
def ofGraph (graph : DependencyGraph) : CriticalPath :=
  let length := graph.depths.maxDepth
  let depthHistogram := graph.depths.histogram
  let members := mark graph
  let counted (opClass : OpClass) := countMembers graph members (·.opClass = opClass)
  { length
    members
    depthHistogram
    avgReady :=
      if length = 0 then none else some (depthHistogram.total.toFloat / length.toFloat)
    loads := counted .load
    stores := counted .store
    computes := counted .compute
    byOpcode := .ofList <| members.filterMap fun uid =>
      ((graph.depths.record? uid).bind (·.opcode)).map Opcode.toNat }

/-- The number of marked instructions. -/
def instructionCount (path : CriticalPath) : Nat :=
  path.members.length

/-- Whether an instruction is marked. -/
def contains (path : CriticalPath) (uid : Uid) : Bool :=
  path.members.contains uid

end CriticalPath

end AccelProfile
