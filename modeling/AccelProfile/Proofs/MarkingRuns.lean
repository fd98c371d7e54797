import Mathlib.Logic.Relation
import AccelProfile.CriticalPath
import AccelProfile.Proofs.Recording

/-!
# Runs of the marking

A marking visits its pending instructions one at a time. Here any of them can be next,
whatever the order in which they stand; the marking that the analysis carries out takes
the first one every time and is one such run among others.

Every run ends, on any graph at all: a visit marks an instruction that was seen, of which
there are finitely many, or takes a visit off and adds none. What a run keeps is that
everything marked or pending leads down from a deepest instruction, that the deepest
instructions are among these, and that whatever is below a marked instruction is marked or
pending itself. When nothing is pending any more, the marked instructions are closed
downwards, so they are all the instructions below a deepest one, in whatever order they
came up. On the graph of a recording these are the instructions from which edges that go
up one level lead to a deepest instruction.
-/

namespace AccelProfile

namespace DependencyGraph

/-- A recorded edge whose consumer is exactly one level deeper than its producer. -/
def LevelEdge (graph : DependencyGraph) (producer consumer : Uid) : Prop :=
  producer ∈ graph.producers.producersOf consumer ∧
    graph.depths.depth producer + 1 = graph.depths.depth consumer

/-- Level edges lead from an instruction up to one that was seen and has the largest depth. -/
def LeadsToDeepest (graph : DependencyGraph) (uid : Uid) : Prop :=
  ∃ deepest, graph.depths.contains deepest = true ∧
    graph.depths.depth deepest = graph.depths.maxDepth ∧
    Relation.ReflTransGen graph.LevelEdge uid deepest

end DependencyGraph

namespace Marking

/-- One turn of a marking: one of the pending instructions is visited, and afterwards the
others and what the visit adds are pending in any order. -/
inductive Turn (graph : DependencyGraph) : Marking → Marking → Prop
  | visit {now next : Marking} (uid : Uid) (others : List Uid)
      (popped : now.pending.Perm (uid :: others))
      (marked : next.marked = (visit graph now.marked uid others).marked)
      (pushed : next.pending.Perm (visit graph now.marked uid others).pending) :
      Turn graph now next

/-- Every turn leaves less to do, so no marking goes on for ever. -/
theorem turn_well_founded (graph : DependencyGraph) :
    WellFounded fun next now => Turn graph now next := by
  have descends : ∀ next now, Turn graph now next →
      Prod.Lex (· < ·) (· < ·) (remaining graph next) (remaining graph now) := by
    rintro next now ⟨uid, others, popped, marked, pushed⟩
    have before : remaining graph now = remaining graph ⟨now.marked, uid :: others⟩ := by
      simp only [remaining, popped.length_eq]
    have behind : remaining graph next = remaining graph (visit graph now.marked uid others) := by
      simp only [remaining, marked, pushed.length_eq]
    rw [before, behind]
    exact visit_decreases graph now.marked uid others
  exact Subrelation.wf (fun turn => descends _ _ turn)
    (InvImage.wf (remaining graph) (Prod.lex Nat.lt_wfRel Nat.lt_wfRel).wf)

/-- A marking can stop exactly where nothing is pending: any pending instruction can be
visited. -/
theorem no_turn_iff (graph : DependencyGraph) (now : Marking) :
    (∀ next, ¬ Turn graph now next) ↔ now.pending = [] := by
  constructor
  · intro stuck
    cases pending : now.pending with
    | nil => rfl
    | cons uid others =>
      have turn : Turn graph now (visit graph now.marked uid others) :=
        .visit uid others (List.Perm.of_eq pending) rfl (List.Perm.refl _)
      exact absurd turn (stuck _)
  · rintro finished next ⟨uid, others, popped, _, _⟩
    rw [finished] at popped
    exact List.cons_ne_nil uid others popped.symm.eq_nil

/-- The analysis is a run: visiting the first pending instruction is a turn. -/
theorem finish_is_run (graph : DependencyGraph) (marking : Marking) :
    Relation.ReflTransGen (Turn graph) marking ⟨finish graph marking, []⟩ := by
  induction marking using finish.induct graph with
  | case1 marked =>
    rw [finish]
  | case2 marked uid others ih =>
    rw [finish]
    have turn : Turn graph ⟨marked, uid :: others⟩ (visit graph marked uid others) :=
      .visit uid others (List.Perm.refl _) rfl (List.Perm.refl _)
    exact Relation.ReflTransGen.head turn ih

/-- An instruction from which one comes up to a deepest instruction by what is below. -/
def Reached (graph : DependencyGraph) (uid : Uid) : Prop :=
  ∃ deepest ∈ graph.depths.deepest,
    Relation.ReflTransGen (fun producer consumer => producer ∈ below graph consumer) uid deepest

/-- What every turn of a marking keeps. -/
structure Invariant (graph : DependencyGraph) (marking : Marking) : Prop where
  /-- The marked instructions ascend. -/
  ascending : marking.marked.Pairwise fun earlier later => earlier.toNat < later.toNat
  /-- Nothing is marked or pending but what is below a deepest instruction. -/
  sound : ∀ uid, uid ∈ marking.marked ∨ uid ∈ marking.pending → Reached graph uid
  /-- The deepest instructions are marked or pending. -/
  seeded : ∀ uid ∈ graph.depths.deepest, uid ∈ marking.marked ∨ uid ∈ marking.pending
  /-- What is below a marked instruction is marked or pending. -/
  closed : ∀ uid ∈ marking.marked, ∀ producer ∈ below graph uid,
    producer ∈ marking.marked ∨ producer ∈ marking.pending

/-- At the start nothing is marked and the deepest instructions are pending. -/
theorem invariant_start (graph : DependencyGraph) : Invariant graph (start graph) where
  ascending := List.Pairwise.nil
  sound uid known := by
    have deepest : uid ∈ graph.depths.deepest := by simpa [start] using known
    exact ⟨uid, deepest, Relation.ReflTransGen.refl⟩
  seeded uid deepest := by simpa [start] using deepest
  closed uid marked := by simp [start] at marked

/-- The order of the pending instructions does not matter. -/
theorem Invariant.perm {graph : DependencyGraph} {now next : Marking}
    (invariant : Invariant graph now) (marked : next.marked = now.marked)
    (pending : next.pending.Perm now.pending) : Invariant graph next := by
  obtain ⟨ascending, sound, seeded, closed⟩ := invariant
  refine ⟨?_, ?_, ?_, ?_⟩ <;> rw [marked]
  · exact ascending
  all_goals simp only [pending.mem_iff]
  · exact sound
  · exact seeded
  · exact closed

/-- A visit moves its instruction from the pending to the marked ones, and what is below a
newly marked instruction becomes pending. -/
theorem Invariant.visit {graph : DependencyGraph} {marked : List Uid} {uid : Uid}
    {others : List Uid} (invariant : Invariant graph ⟨marked, uid :: others⟩) :
    Invariant graph (visit graph marked uid others) := by
  obtain ⟨ascending, sound, seeded, closed⟩ := invariant
  by_cases known : uid ∈ marked
  · simp only [Marking.visit, known, if_true]
    -- A pending instruction that is marked already is covered without being pending.
    have covered (other : Uid) (before : other ∈ marked ∨ other ∈ uid :: others) :
        other ∈ marked ∨ other ∈ others := by
      rcases before with before | before
      · exact Or.inl before
      · rcases List.mem_cons.1 before with rfl | before
        · exact Or.inl known
        · exact Or.inr before
    exact {
      ascending
      sound := fun other now => sound other (now.imp id (List.mem_cons_of_mem uid))
      seeded := fun other deepest => covered other (seeded other deepest)
      closed := fun other now producer step => covered producer (closed other now producer step) }
  · simp only [Marking.visit, known, if_false]
    have covered (other : Uid) (before : other ∈ marked ∨ other ∈ uid :: others) :
        other ∈ Uid.insert uid marked ∨ other ∈ (below graph uid).reverse ++ others := by
      rcases before with before | before
      · exact Or.inl (Uid.mem_insert.2 (Or.inr before))
      · rcases List.mem_cons.1 before with rfl | before
        · exact Or.inl (Uid.mem_insert.2 (Or.inl rfl))
        · exact Or.inr (List.mem_append_right _ before)
    obtain ⟨deepest, seed, climb⟩ := sound uid (Or.inr List.mem_cons_self)
    refine ⟨Uid.insert_ascending uid ascending, ?_, ?_, ?_⟩
    · intro other now
      simp only [Uid.mem_insert, List.mem_append, List.mem_reverse] at now
      rcases now with (rfl | now) | (step | now)
      · exact ⟨deepest, seed, climb⟩
      · exact sound other (Or.inl now)
      · exact ⟨deepest, seed, climb.head step⟩
      · exact sound other (Or.inr (List.mem_cons_of_mem uid now))
    · intro other deep
      exact covered other (seeded other deep)
    · intro other now producer step
      rcases Uid.mem_insert.1 now with rfl | now
      · exact Or.inr (List.mem_append_left _ (List.mem_reverse.2 step))
      · exact covered producer (closed other now producer step)

/-- A run keeps the invariant. -/
theorem Invariant.run {graph : DependencyGraph} {now final : Marking}
    (invariant : Invariant graph now) (run : Relation.ReflTransGen (Turn graph) now final) :
    Invariant graph final := by
  induction run with
  | refl => exact invariant
  | @tail last next _ turn kept =>
    obtain ⟨uid, others, popped, marked, pushed⟩ := turn
    have atFront : Invariant graph ⟨last.marked, uid :: others⟩ := kept.perm rfl popped.symm
    exact atFront.visit.perm marked pushed

/-- When nothing is pending, exactly what is below a deepest instruction is marked: the
marked instructions are closed downwards and hold the deepest ones. -/
theorem Invariant.mem_marked_iff {graph : DependencyGraph} {final : Marking}
    (invariant : Invariant graph final) (finished : final.pending = []) (uid : Uid) :
    uid ∈ final.marked ↔ Reached graph uid := by
  constructor
  · intro marked
    exact invariant.sound uid (Or.inl marked)
  · rintro ⟨deepest, seed, climb⟩
    have settled (other : Uid) (before : other ∈ final.marked ∨ other ∈ final.pending) :
        other ∈ final.marked := by simpa [finished] using before
    induction climb using Relation.ReflTransGen.head_induction_on with
    | refl => exact settled deepest (invariant.seeded deepest seed)
    | head step _ marked => exact settled _ (invariant.closed _ marked _ step)

/-- All finished runs of a graph mark the same list. -/
theorem marked_unique {graph : DependencyGraph} {final : Marking}
    (run : Relation.ReflTransGen (Turn graph) (start graph) final)
    (finished : final.pending = []) : final.marked = finish graph (start graph) := by
  have kept := (invariant_start graph).run run
  have analysed := (invariant_start graph).run (finish_is_run graph (start graph))
  refine Uid.ascending_ext kept.ascending analysed.ascending fun uid => ?_
  rw [kept.mem_marked_iff finished, analysed.mem_marked_iff rfl]

/-- On the graph of a recording, what is below an instruction is one level edge away from
it. A producer was seen, so its consumer is deeper than a leaf if it is one level deeper. -/
theorem mem_below_iff (steps : List DependencyGraph.Step) (producer consumer : Uid) :
    producer ∈ below (DependencyGraph.after steps) consumer ↔
      (DependencyGraph.after steps).LevelEdge producer consumer := by
  have seen (recorded : producer ∈
      (DependencyGraph.after steps).producers.producersOf consumer) :
      leafDepth ≤ (DependencyGraph.after steps).depths.depth producer := by
    rw [DependencyGraph.mem_producersOf_after] at recorded
    exact DependencyGraph.leaf_le_depth steps (DependencyGraph.contains_of_edge steps recorded).1
  simp only [below, DependencyGraph.LevelEdge]
  split
  · next low =>
    apply iff_of_false List.not_mem_nil
    rintro ⟨recorded, levels⟩
    have leaf := seen recorded
    omega
  · next high =>
    simp only [List.mem_filter, decide_eq_true_eq]
    refine and_congr_right fun _ => ?_
    omega

/-- On the graph of a recording, the instructions below a deepest one are those from which
level edges lead up to it. -/
theorem reached_iff (steps : List DependencyGraph.Step) (uid : Uid) :
    Reached (DependencyGraph.after steps) uid ↔
      (DependencyGraph.after steps).LeadsToDeepest uid := by
  have relations : (fun producer consumer =>
      producer ∈ below (DependencyGraph.after steps) consumer) =
      (DependencyGraph.after steps).LevelEdge := by
    funext producer consumer
    exact propext (mem_below_iff steps producer consumer)
  simp only [Reached, DependencyGraph.LeadsToDeepest, relations, DepthTable.mem_deepest_iff,
    and_assoc]

end Marking

namespace CriticalPath

open DependencyGraph (Step after consistent_after depth_of_contains)

/-- Nothing leads to a deepest instruction while nothing was seen. -/
theorem not_leadsToDeepest_of_unseen (steps : List Step)
    (unseen : (after steps).depths.size = 0) (uid : Uid) : ¬ (after steps).LeadsToDeepest uid := by
  rintro ⟨deepest, seen, _⟩
  rw [(after steps).depths.size_eq_zero_iff.1 unseen deepest] at seen
  exact Bool.false_ne_true seen

/-- What leads to a deepest instruction was seen: it is that instruction or the producer of
an edge. -/
theorem contains_of_leadsToDeepest (steps : List Step) {uid : Uid}
    (leads : (after steps).LeadsToDeepest uid) : (after steps).depths.contains uid = true := by
  obtain ⟨deepest, seen, _, climb⟩ := leads
  rcases climb.cases_head with rfl | ⟨next, ⟨producer, _⟩, _⟩
  · exact seen
  · rw [DependencyGraph.mem_producersOf_after] at producer
    exact (DependencyGraph.contains_of_edge steps producer).1

/-- The analysis gives what its marking marks; the empty graph needs no case of its own. -/
theorem mark_eq_finish (steps : List Step) :
    mark (after steps) = Marking.finish (after steps) (.start (after steps)) := by
  by_cases zero : (after steps).depths.maxDepth = 0
  · have unseen := (consistent_after steps).maxDepth_eq_zero_iff.1 zero
    rw [mark, if_pos zero]
    refine (List.eq_nil_iff_forall_not_mem.2 fun uid marked => ?_).symm
    have kept := (Marking.invariant_start (after steps)).run (Marking.finish_is_run _ _)
    rw [kept.mem_marked_iff rfl, Marking.reached_iff] at marked
    exact not_leadsToDeepest_of_unseen steps unseen uid marked
  · rw [mark, if_neg zero]

/-- The marked instructions are those from which level edges lead to a deepest one. -/
theorem mem_mark_iff (steps : List Step) (uid : Uid) :
    uid ∈ mark (after steps) ↔ (after steps).LeadsToDeepest uid := by
  have kept := (Marking.invariant_start (after steps)).run (Marking.finish_is_run _ _)
  rw [mark_eq_finish, ← Marking.reached_iff]
  exact kept.mem_marked_iff rfl uid

/-- Nothing is marked exactly if nothing was seen: as long as there is an instruction, one
of them has the largest depth. -/
theorem mark_eq_nil_iff (steps : List Step) :
    mark (after steps) = [] ↔ (after steps).depths.size = 0 := by
  constructor
  · intro nothing
    by_contra seen
    rw [← (consistent_after steps).maxDepth_eq_zero_iff] at seen
    obtain ⟨uid, known, deepest⟩ := (consistent_after steps).attained.resolve_left seen
    have depth := (depth_of_contains steps known).trans deepest
    have marked : uid ∈ mark (after steps) :=
      (mem_mark_iff steps uid).2 ⟨uid, known, depth, Relation.ReflTransGen.refl⟩
    rw [nothing] at marked
    exact List.not_mem_nil marked
  · intro unseen
    refine List.eq_nil_iff_forall_not_mem.2 fun uid marked => ?_
    exact not_leadsToDeepest_of_unseen steps unseen uid ((mem_mark_iff steps uid).1 marked)

/-- On the graph of any recording, with cycles, repeated edges and edges from an instruction
to itself, a marking that visits its pending instructions in any order ends, and it can
stop only where nothing is pending. All runs that stop mark the same list, which the
analysis gives: the instructions from which recorded edges, each of them up exactly one
level, lead to an instruction of the largest depth. There are none exactly if nothing was
seen.

An instruction that was never seen reports depth zero, which is the largest depth of an
empty graph; that is why the deepest instruction has to be one that was seen. -/
theorem mark_exact (steps : List Step) :
    let graph := after steps
    (WellFounded fun next now => Marking.Turn graph now next) ∧
    (∀ now, (∀ next, ¬ Marking.Turn graph now next) ↔ now.pending = []) ∧
    (∃ final, Relation.ReflTransGen (Marking.Turn graph) (.start graph) final ∧
      final.pending = []) ∧
    (∀ final, Relation.ReflTransGen (Marking.Turn graph) (.start graph) final →
      final.pending = [] → final.marked = mark graph) ∧
    (∀ uid, uid ∈ mark graph ↔
      ∃ deepest, graph.depths.contains deepest = true ∧
        graph.depths.depth deepest = graph.depths.maxDepth ∧
        Relation.ReflTransGen (fun producer consumer =>
          producer ∈ graph.producers.producersOf consumer ∧
            graph.depths.depth producer + 1 = graph.depths.depth consumer) uid deepest) ∧
    (mark graph = [] ↔ graph.depths.size = 0) := by
  intro graph
  refine ⟨Marking.turn_well_founded graph, Marking.no_turn_iff graph,
    ⟨_, Marking.finish_is_run graph _, rfl⟩, ?_, mem_mark_iff steps, mark_eq_nil_iff steps⟩
  intro final run finished
  rw [mark_eq_finish]
  exact Marking.marked_unique run finished

end CriticalPath

end AccelProfile
