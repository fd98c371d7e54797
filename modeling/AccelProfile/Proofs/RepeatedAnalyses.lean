import AccelProfile.Proofs.EngineCalls

/-!
# Analyses in the middle of a run

The critical path can be analysed at any time, and again later. An analysis reads the graph of
dependencies alone, which no analysis changes, and writes over what an earlier one left in the
engine. There is one exception: an analysis of an empty graph has no instructions per level to
give, and leaves the number that it finds.

So an engine can hold a stale number of instructions per level. But such a number comes from an
analysis of a graph that was not empty, and a graph is never emptied again: the next analysis
replaces the number. Whatever analyses are put into a run, they leave no mark that the analysis
at its end does not wipe out.
-/

namespace AccelProfile

namespace Dataflow

/-- The dataflow as it would be without what an analysis writes. -/
def withoutPath (dataflow : Dataflow) : Dataflow :=
  { dataflow with
    pathLength := 0
    pathInstructions := 0
    pathLoads := 0
    pathStores := 0
    pathComputes := 0
    pathByOpcode := .empty
    avgReady := 0 }

/-- Two dataflows that differ in nothing but what an analysis writes come to the same by one
that gives the instructions per level, and by any one if they have the same of these. -/
theorem applyPath_eq {left right : Dataflow} (rest : left.withoutPath = right.withoutPath)
    {path : CriticalPath} (ready : left.avgReady = right.avgReady ∨ path.avgReady.isSome = true) :
    left.applyPath path = right.applyPath path := by
  have avgReady : path.avgReady.getD left.avgReady = path.avgReady.getD right.avgReady := by
    rcases ready with same | given
    · rw [same]
    · obtain ⟨value, isValue⟩ := Option.isSome_iff_exists.1 given
      rw [isValue, Option.getD_some, Option.getD_some]
  have overwritten (dataflow : Dataflow) : dataflow.applyPath path =
      { dataflow.withoutPath.applyPath path with
        avgReady := path.avgReady.getD dataflow.avgReady } := rfl
  rw [overwritten left, overwritten right, rest, avgReady]

end Dataflow

namespace Engine

/-- The engine as it would be without what analyses leave in it. -/
def withoutPath (engine : Engine) : Engine :=
  { engine with
    path := none
    summary := { engine.summary with dataflow := engine.summary.dataflow.withoutPath } }

/-- An analysis leaves everything but its own results as it was. -/
theorem withoutPath_analyse (engine : Engine) : engine.analyse.withoutPath = engine.withoutPath :=
  rfl

/-- No call looks at what an analysis has left. -/
theorem withoutPath_receive (engine : Engine) (call : Call) :
    (engine.receive call).withoutPath = (engine.withoutPath.receive call).withoutPath := by
  cases call with
  | event event =>
    cases event with
    | cycleEnd cycle sample => cases sample <;> rfl
    | _ => rfl
  | _ => rfl

/-- Only an analysis moves the instructions per level. -/
theorem avgReady_receive (engine : Engine) {call : Call} (other : call ≠ .analyse) :
    (engine.receive call).summary.dataflow.avgReady = engine.summary.dataflow.avgReady := by
  cases call with
  | analyse => exact absurd rfl other
  | event event =>
    cases event with
    | cycleEnd cycle sample => cases sample <;> rfl
    | _ => rfl
  | _ => rfl

/-- No call makes the largest depth smaller. -/
theorem maxDepth_le_receive (engine : Engine) (call : Call) :
    engine.graph.depths.maxDepth ≤ (engine.receive call).graph.depths.maxDepth := by
  rw [graph_receive]
  cases call.step? with
  | none => exact Nat.le_refl _
  | some step => exact engine.graph.maxDepth_le_recordStep step

/-- Two engines that differ in nothing but what analyses left in them. Where they have
different instructions per level, the graph is not empty, so an analysis will replace them. -/
structure AlikeButForAnalyses (left right : Engine) : Prop where
  rest : left.withoutPath = right.withoutPath
  ready : left.summary.dataflow.avgReady = right.summary.dataflow.avgReady ∨
    left.graph.depths.maxDepth ≠ 0

namespace AlikeButForAnalyses

theorem refl (engine : Engine) : AlikeButForAnalyses engine engine :=
  ⟨rfl, Or.inl rfl⟩

/-- An analysis makes the two engines equal. -/
theorem analyse_eq {left right : Engine} (alike : AlikeButForAnalyses left right) :
    left.analyse = right.analyse := by
  have graph : left.graph = right.graph := by
    have same := congrArg Engine.graph alike.rest
    exact same
  have dataflow : left.summary.dataflow.applyPath (.ofGraph left.graph) =
      right.summary.dataflow.applyPath (.ofGraph left.graph) := by
    apply Dataflow.applyPath_eq (congrArg (·.summary.dataflow) alike.rest)
    refine alike.ready.imp id fun seen => ?_
    simp [CriticalPath.ofGraph, seen]
  have analysed (engine : Engine) : engine.analyse =
      { engine.withoutPath with
        path := some (.ofGraph engine.graph)
        summary := { engine.withoutPath.summary with
          dataflow := engine.summary.dataflow.applyPath (.ofGraph engine.graph) } } := rfl
  rw [analysed left, analysed right, alike.rest, dataflow, graph]

/-- Two such engines stay alike by the same call. -/
theorem receive {left right : Engine} (alike : AlikeButForAnalyses left right) (call : Call) :
    AlikeButForAnalyses (left.receive call) (right.receive call) := by
  by_cases other : call = .analyse
  · subst other
    have equal : left.receive .analyse = right.receive .analyse := alike.analyse_eq
    rw [equal]
    exact refl _
  · refine ⟨?_, ?_⟩
    · rw [withoutPath_receive left, withoutPath_receive right, alike.rest]
    · rw [avgReady_receive left other, avgReady_receive right other]
      refine alike.ready.imp id fun seen => ?_
      have grows := left.maxDepth_le_receive call
      omega

/-- One of the two engines can be analysed by itself. If its graph is empty, that leaves the
instructions per level. -/
theorem analyse_left {left right : Engine} (alike : AlikeButForAnalyses left right) :
    AlikeButForAnalyses left.analyse right where
  rest := left.withoutPath_analyse.trans alike.rest
  ready := by
    by_cases empty : left.graph.depths.maxDepth = 0
    · have kept : left.analyse.summary.dataflow.avgReady = left.summary.dataflow.avgReady := by
        simp [analyse, Dataflow.applyPath, CriticalPath.ofGraph, empty]
      rw [kept]
      exact alike.ready.imp id fun seen => absurd empty seen
    · exact Or.inr empty

end AlikeButForAnalyses

/-- The second run is the first one with analyses put in anywhere. -/
inductive WithAnalyses : List Call → List Call → Prop
  | nil : WithAnalyses [] []
  /-- A call of the run. -/
  | call {calls more : List Call} (call : Call) (others : WithAnalyses calls more) :
    WithAnalyses (call :: calls) (call :: more)
  /-- An analysis that is put in. -/
  | analyse {calls more : List Call} (others : WithAnalyses calls more) :
    WithAnalyses calls (.analyse :: more)

/-- Engines that are alike stay so when one of them is analysed more often on the way. -/
theorem AlikeButForAnalyses.foldl {calls more : List Call} (inserted : WithAnalyses calls more)
    {left right : Engine} (alike : AlikeButForAnalyses left right) :
    AlikeButForAnalyses (more.foldl Engine.receive left) (calls.foldl Engine.receive right) := by
  induction inserted generalizing left right with
  | nil => exact alike
  | call call _ ih => exact ih (alike.receive call)
  | analyse _ ih => exact ih alike.analyse_left

/-- Whatever analyses are put into a run from any engine, the analysis at its end gives the same
engine as without them: the same summary, the same critical path, the same everything. Two
analyses in a row give what one gives. And an analysis changes nothing in the engine apart from
the last critical path and, in the dataflow of the summary, what belongs to the critical path
and the instructions per level. -/
theorem extra_analyses_leave_no_mark (engine : Engine) :
    (∀ calls more, WithAnalyses calls more →
      (more.foldl receive engine).analyse = (calls.foldl receive engine).analyse) ∧
    engine.analyse.analyse = engine.analyse ∧
    engine.analyse.withoutPath = engine.withoutPath := by
  have alike := AlikeButForAnalyses.refl engine
  refine ⟨?_, alike.analyse_left.analyse_eq, engine.withoutPath_analyse⟩
  intro calls more inserted
  exact (alike.foldl inserted).analyse_eq

/-- An edge, and the same edge with an analysis of the empty graph before it and one behind it. -/
theorem analysed_edge_ends_alike :
    let edge : Call := .event (.dependency ⟨⟨1⟩, ⟨2⟩, .trueOnly⟩)
    WithAnalyses [edge] [.analyse, edge, .analyse] ∧
      ([.analyse, edge, .analyse].foldl receive (start .standard)).analyse =
        ([edge].foldl receive (start .standard)).analyse := by
  intro edge
  have inserted : WithAnalyses [edge] [.analyse, edge, .analyse] :=
    .analyse (.call edge (.analyse .nil))
  exact ⟨inserted, (extra_analyses_leave_no_mark (start .standard)).1 _ _ inserted⟩

end Engine

end AccelProfile
