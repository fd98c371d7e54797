import Mathlib.Data.Fintype.EquivFin
import Mathlib.Logic.Equiv.Fintype
import AccelProfile.Proofs.EngineCalls
import AccelProfile.Proofs.RenamedGraphs
import AccelProfile.Proofs.RunOutputs

/-!
# Runs under other names

The identifiers of a run can be exchanged for others, as long as different ones stay different.
The events under the new names do to the engine what they did under the old ones: afterwards its
graph is the renamed graph, and everything else in it is the same. So the run ends with the same
summary, prints the same texts and writes the same files, and the critical path has the renamed
members.

It is enough that the renaming keeps apart the identifiers that occur in the run. These are
finitely many, so there is a permutation of all identifiers that renames them in the same way,
and it is this permutation that the graph is renamed by.
-/

namespace AccelProfile

namespace Event

/-- The identifiers that occur in an event. -/
def uids : Event → List Uid
  | .dependency edge => [edge.producer, edge.consumer]
  | .commit uid .. => [uid]
  | _ => []

/-- The event under other identifiers. -/
def rename (names : Uid → Uid) : Event → Event
  | .dependency edge => .dependency ⟨names edge.producer, names edge.consumer, edge.kinds⟩
  | .commit uid opcode isLoad isStore => .commit (names uid) opcode isLoad isStore
  | event => event

/-- Only the names of the identifiers that occur in it matter to an event. -/
theorem rename_congr {names other : Uid → Uid} {event : Event}
    (agree : ∀ uid ∈ event.uids, names uid = other uid) :
    event.rename names = event.rename other := by
  cases event with
  | dependency edge =>
    have producer := agree edge.producer (by simp [uids])
    have consumer := agree edge.consumer (by simp [uids])
    simp only [rename, producer, consumer]
  | commit uid opcode isLoad isStore =>
    have committed := agree uid (by simp [uids])
    simp only [rename, committed]
  | _ => rfl

/-- A renaming that keeps the identifiers of a run apart renames the run as some permutation of
all identifiers does. -/
theorem exists_permutation (names : Uid → Uid) (events : List Event)
    (apart : ∀ uid ∈ events.flatMap uids, ∀ other ∈ events.flatMap uids,
      names uid = names other → uid = other) :
    ∃ permutation : Equiv.Perm Uid, (∀ uid ∈ events.flatMap uids, permutation uid = names uid) ∧
      events.map (rename names) = events.map (rename permutation) := by
  obtain ⟨permutation, onOccurring⟩ := Equiv.Perm.exists_extending_pair
    (fun uid : {uid // uid ∈ events.flatMap uids} => uid.val)
    (fun uid : {uid // uid ∈ events.flatMap uids} => names uid.val)
    Subtype.val_injective
    (fun uid other same => Subtype.ext (apart _ uid.property _ other.property same))
  have agrees (uid : Uid) (occurs : uid ∈ events.flatMap uids) : permutation uid = names uid :=
    onOccurring ⟨uid, occurs⟩
  refine ⟨permutation, agrees, List.map_congr_left fun event inside => ?_⟩
  apply rename_congr
  intro uid occurs
  exact (agrees uid (List.mem_flatMap.2 ⟨event, inside, occurs⟩)).symm

end Event

namespace Engine

/-- The engine under other identifiers. -/
def rename (names : Equiv.Perm Uid) (engine : Engine) : Engine :=
  { engine with
    graph := engine.graph.rename names
    path := engine.path.map (·.rename names) }

variable (names : Equiv.Perm Uid)

/-- A renamed event makes of the renamed engine what the event made of the engine, renamed. -/
theorem apply_rename (engine : Engine) (event : Event) :
    (engine.rename names).apply (event.rename names) = (engine.apply event).rename names := by
  cases event with
  | dependency edge =>
    have recorded := engine.graph.record_rename names edge.producer edge.consumer
    simp only [apply, Event.rename, recordDependency, rename, recorded]
  | commit uid opcode isLoad isStore =>
    have committed := engine.graph.commit_rename names uid opcode (OpClass.ofFlags isLoad isStore)
    simp only [apply, Event.rename, commit, rename, committed]
    simp only [DependencyGraph.rename, DepthTable.depth_rename, DepthTable.maxDepth_rename]
  | cycleEnd cycle sample => cases sample <;> rfl
  | _ => rfl

theorem foldl_apply_rename (events : List Event) (engine : Engine) :
    (events.map (Event.rename names)).foldl apply (engine.rename names) =
      (events.foldl apply engine).rename names := by
  induction events generalizing engine with
  | nil => rfl
  | cons event events ih =>
    rw [List.map_cons, List.foldl_cons, List.foldl_cons, apply_rename, ih]

/-- An analysis of the renamed engine finds the renamed path, which says the same about the
dataflow. -/
theorem analyse_rename (engine : Engine) :
    (engine.rename names).analyse = engine.analyse.rename names := by
  have found : CriticalPath.ofGraph (engine.rename names).graph =
      (CriticalPath.ofGraph engine.graph).rename names :=
    CriticalPath.ofGraph_rename names engine.graph
  have dataflow : engine.summary.dataflow.applyPath
      ((CriticalPath.ofGraph engine.graph).rename names) =
        engine.summary.dataflow.applyPath (CriticalPath.ofGraph engine.graph) := by
    simp only [Dataflow.applyPath, CriticalPath.instructionCount_rename]
    rfl
  have analysed : (engine.rename names).analyse =
      { (engine.rename names) with
        path := some ((CriticalPath.ofGraph engine.graph).rename names)
        summary := { engine.summary with
          dataflow := engine.summary.dataflow.applyPath
            ((CriticalPath.ofGraph engine.graph).rename names) } } := by
    rw [← found]
    rfl
  rw [analysed, dataflow]
  rfl

/-- The engine of a renamed run is the renamed engine of the run. -/
theorem told_rename (name : String) (config : Config) (events : List Event) :
    told name (events.map (Event.rename names)) config = (told name events config).rename names :=
  foldl_apply_rename names events ((start config).setName name)

/-- The instructions of what an event records occur in the event. -/
theorem mem_uids_of_step? {event : Event} {step : DependencyGraph.Step} {uid : Uid}
    (recorded : (Call.event event).step? = some step)
    (occurs : (∃ edge ∈ step.edge?, edge.1 = uid ∨ edge.2 = uid) ∨ step.committed? = some uid) :
    uid ∈ event.uids := by
  cases event with
  | dependency edge =>
    obtain rfl : DependencyGraph.Step.edge edge.producer edge.consumer = step :=
      Option.some.inj recorded
    simpa [DependencyGraph.Step.edge?, DependencyGraph.Step.committed?, Event.uids, eq_comm]
      using occurs
  | commit committed opcode isLoad isStore =>
    obtain rfl : DependencyGraph.Step.commit committed opcode (OpClass.ofFlags isLoad isStore) =
      step := Option.some.inj recorded
    simpa [DependencyGraph.Step.edge?, DependencyGraph.Step.committed?, Event.uids, eq_comm]
      using occurs
  | _ => simp [Call.step?] at recorded

/-- The members of the critical path of a run occur in its events. -/
theorem mem_uids_of_mem_members (name : String) (config : Config) (events : List Event) {uid : Uid}
    (member : uid ∈ (CriticalPath.ofGraph (told name events config).graph).members) :
    uid ∈ events.flatMap Event.uids := by
  let calls : List Call := .setName name :: events.map .event
  have isRun : told name events config = after config calls := by
    simp [told, after, calls, List.foldl_map, receive]
  have marked : uid ∈ CriticalPath.mark (DependencyGraph.after (recording calls)) := by
    rw [← graph_after config, ← isRun]
    exact member
  have seen := CriticalPath.contains_of_leadsToDeepest _
    ((CriticalPath.mem_mark_iff _ _).1 marked)
  -- What was seen occurs in a recorded step, and each of these comes from an event.
  obtain ⟨step, inside, occurs⟩ : ∃ step ∈ recording calls,
      (∃ edge ∈ step.edge?, edge.1 = uid ∨ edge.2 = uid) ∨ step.committed? = some uid := by
    rcases (DependencyGraph.contains_after _ _).1 seen with ⟨edge, recorded, isEnd⟩ | committed
    · obtain ⟨step, inside, isEdge⟩ := List.mem_filterMap.1 recorded
      exact ⟨step, inside, Or.inl ⟨edge, isEdge, isEnd⟩⟩
    · obtain ⟨step, inside, isCommit⟩ := List.mem_filterMap.1 committed
      exact ⟨step, inside, Or.inr isCommit⟩
  obtain ⟨call, called, isStep⟩ := List.mem_filterMap.1 inside
  rcases List.mem_cons.1 called with rfl | isEvent
  · simp [Call.step?] at isStep
  · obtain ⟨event, happened, rfl⟩ := List.mem_map.1 isEvent
    exact List.mem_flatMap.2 ⟨event, happened, mem_uids_of_step? isStep occurs⟩

end Engine

namespace Accelerator

/-- An accelerator whose engine is missing counts events under any identifiers alike. -/
theorem replay_rename_of_none (names : Uid → Uid) (events : List Event)
    {accelerator : Accelerator} (missing : accelerator.engine = none) :
    accelerator.replay (events.map (Event.rename names)) = accelerator.replay events := by
  induction events generalizing accelerator with
  | nil => rfl
  | cons event events ih =>
    have step : accelerator.apply (event.rename names) = accelerator.apply event := by
      cases event <;> simp [apply, count, Event.rename, missing]
    have stillMissing : (accelerator.apply event).engine = none := by
      simp [apply, missing]
    have others := ih stillMissing
    rw [← step] at others
    simpa [replay, step] using others

variable (name : String) (config : Config) (setupTime simTime : Float) (clockPeriod : Nat)

/-- The end of a run closes the renamed engine as it closes the engine. -/
theorem closeEngine_rename (names : Equiv.Perm Uid) (accelerator : Accelerator)
    (engine : Engine) :
    accelerator.closeEngine (engine.rename names) setupTime simTime clockPeriod =
      (accelerator.closeEngine engine setupTime simTime clockPeriod).rename names := by
  let handed := (engine.setName accelerator.name).setPerformance
    (Performance.collect setupTime simTime clockPeriod accelerator.totalCycles
      accelerator.stallCycles)
  exact congrArg Engine.summarizeCycles (handed.analyse_rename names)

/-- A run renamed by a permutation ends like the run. -/
theorem finalize_rename (names : Equiv.Perm Uid) (events : List Event) :
    ((withEngine name config).replay (events.map (Event.rename names))).finalize setupTime simTime
        clockPeriod =
      ((withEngine name config).replay events).finalize setupTime simTime clockPeriod := by
  have counts := replay_rename_of_none names events (rfl : (withoutEngine name).engine = none)
  rw [finalize_withEngine, finalize_withEngine, closed, counts, Engine.told_rename,
    closeEngine_rename]
  rfl

/-- The critical path that an analysis of the engine finds, if the engine is there. -/
def criticalPath? (accelerator : Accelerator) : Option CriticalPath :=
  accelerator.engine.bind fun engine => engine.analyse.path

theorem criticalPath?_replay (events : List Event) :
    ((withEngine name config).replay events).criticalPath? =
      some (.ofGraph (Engine.told name events config).graph) := by
  rw [criticalPath?, engine_replay_withEngine]
  rfl

/-- Different identifiers that stay different can be exchanged for any others: under the new
names, the run on a fresh accelerator with an engine ends with the same summary, prints the same
text and writes the same files. The critical path is the same under the new names: its members
are the renamed members, and everything else that an analysis finds is equal. -/
theorem renamed_run_ends_alike (names : Uid → Uid) (events : List Event)
    (apart : ∀ uid ∈ events.flatMap Event.uids, ∀ other ∈ events.flatMap Event.uids,
      names uid = names other → uid = other) :
    let run (events : List Event) := (withEngine name config).replay events
    let closing (events : List Event) := (run events).finalize setupTime simTime clockPeriod
    let renamed := events.map (Event.rename names)
    closing renamed = closing events ∧
    (∃ summary, (closing events).result = .structured summary ∧
      (closing renamed).result = .structured summary) ∧
    ∃ path, (run events).criticalPath? = some path ∧
      (run renamed).criticalPath? = some (path.rename names) ∧
      ∀ uid, uid ∈ (path.rename names).members ↔ ∃ member ∈ path.members, names member = uid := by
  intro run closing renamed
  obtain ⟨permutation, agrees, sameEvents⟩ := Event.exists_permutation names events apart
  have alike : closing renamed = closing events := by
    simp only [closing, run, renamed, sameEvents]
    exact finalize_rename name config setupTime simTime clockPeriod permutation events
  obtain ⟨summary, structured⟩ : ∃ summary, (closing events).result = .structured summary := by
    simp only [closing, run, finalize_withEngine]
    exact ⟨_, rfl⟩
  refine ⟨alike, ⟨summary, structured, alike ▸ structured⟩, _,
    criticalPath?_replay name config events, ?_, ?_⟩
  · have members : (CriticalPath.ofGraph (Engine.told name events config).graph).rename names =
        (CriticalPath.ofGraph (Engine.told name events config).graph).rename permutation := by
      apply CriticalPath.rename_congr
      intro uid member
      exact (agrees uid (Engine.mem_uids_of_mem_members name config events member)).symm
    simp only [run, renamed, sameEvents, criticalPath?_replay, members, Engine.told_rename]
    exact congrArg some (CriticalPath.ofGraph_rename permutation _)
  · intro uid
    simp only [CriticalPath.rename, Uid.mem_ascending, List.mem_map]

/-- Three instructions in a chain, of which the last one commits. -/
def chainRun : List Event :=
  [.dependency ⟨⟨1⟩, ⟨2⟩, .trueOnly⟩, .dependency ⟨⟨2⟩, ⟨3⟩, .trueOnly⟩,
    .commit ⟨3⟩ ⟨7⟩ true false]

/-- The chain run under names that turn the order of its instructions around. The renaming keeps
apart the instructions of the run, but not all others. -/
theorem turned_chain_run_ends_alike :
    let names (uid : Uid) : Uid := ⟨9 - uid.val % 4⟩
    let run (events : List Event) := (withEngine "gemm" .standard).replay events
    let closing (events : List Event) := (run events).finalize 0 0 10
    let renamed := chainRun.map (Event.rename names)
    (∀ uid ∈ chainRun.flatMap Event.uids, ∀ other ∈ chainRun.flatMap Event.uids,
      names uid = names other → uid = other) ∧
    closing renamed = closing chainRun ∧
    (∃ summary, (closing chainRun).result = .structured summary ∧
      (closing renamed).result = .structured summary) ∧
    ∃ path, (run chainRun).criticalPath? = some path ∧
      (run renamed).criticalPath? = some (path.rename names) ∧
      ∀ uid, uid ∈ (path.rename names).members ↔ ∃ member ∈ path.members, names member = uid := by
  intro names run closing renamed
  have apart : ∀ uid ∈ chainRun.flatMap Event.uids, ∀ other ∈ chainRun.flatMap Event.uids,
      names uid = names other → uid = other := by decide
  exact ⟨apart, renamed_run_ends_alike "gemm" .standard 0 0 10 names chainRun apart⟩

end Accelerator

end AccelProfile
