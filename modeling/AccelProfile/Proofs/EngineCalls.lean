import AccelProfile.Engine
import AccelProfile.Proofs.Recording

/-!
# Calls of the engine

Whatever changes an engine is a call of it: an event, the sample of the cycle under way,
an analysis of the critical path, or one of the values that are handed over from outside.
A run is any sequence of calls, with analyses in the middle of it as well as at its end.

Only dependencies and commits reach the dependency graph, so the graph of a run is the
graph after the recording that these calls make up; no other call can move a depth.
-/

namespace AccelProfile

/-- Where each step moves a part of a state by what it tells the part, if anything, the part of a
run is the run of what the part was told. -/
theorem foldl_part {σ π α β : Type} {step : σ → α → σ} {move : π → β → π} {told : α → Option β}
    (part : σ → π)
    (moves : ∀ state item,
      part (step state item) = (told item).elim (part state) (move (part state)))
    (state : σ) (items : List α) :
    part (items.foldl step state) = (items.filterMap told).foldl move (part state) := by
  induction items generalizing state with
  | nil => rfl
  | cons item items ih =>
    rw [List.foldl_cons, ih, moves]
    cases known : told item <;> simp [known]

namespace Engine

/-- One call of the engine. -/
inductive Call
  | event (event : Event)
  | setSample (sample : CycleSample)
  | analyse
  | summarizeCycles
  | setName (name : String)
  | setPerformance (performance : Performance)

/-- The engine after a call. -/
def receive (engine : Engine) : Call → Engine
  | .event event => engine.apply event
  | .setSample sample => engine.setSample sample
  | .analyse => engine.analyse
  | .summarizeCycles => engine.summarizeCycles
  | .setName name => engine.setName name
  | .setPerformance performance => engine.setPerformance performance

/-- The engine after a run. -/
def after (config : Config) (calls : List Call) : Engine :=
  calls.foldl receive (start config)

/-- What a call records in the dependency graph. -/
def Call.step? : Call → Option DependencyGraph.Step
  | .event (.dependency edge) => some (.edge edge.producer edge.consumer)
  | .event (.commit uid opcode isLoad isStore) =>
    some (.commit uid opcode (OpClass.ofFlags isLoad isStore))
  | _ => none

/-- What a run records in the dependency graph. -/
def recording (calls : List Call) : List DependencyGraph.Step :=
  calls.filterMap Call.step?

/-- A call moves the dependency graph by what it records there, and leaves it alone if that
is nothing. -/
theorem graph_receive (engine : Engine) (call : Call) :
    (engine.receive call).graph = call.step?.elim engine.graph engine.graph.recordStep := by
  cases call with
  | event event =>
    cases event with
    | cycleEnd cycle sample => cases sample <;> rfl
    | _ => rfl
  | _ => rfl

/-- The dependency graph of a run is that of its recording. -/
theorem graph_after (config : Config) (calls : List Call) :
    (after config calls).graph = DependencyGraph.after (recording calls) :=
  foldl_part Engine.graph graph_receive (start config) calls

end Engine

end AccelProfile
