import AccelProfile.Accelerator

/-!
# Streams of events

The events of a run come from several parts of the hardware, each of which tells its own in
order. A stream is what remains of a run when only some kinds of events are kept. Every part
of an accelerator follows one stream: the events in it move the part, by what the part is
before and nothing else, and all other events leave it alone. So a part is determined by its
stream, however the run mixes the streams.

Two parts need care. The dataflow of the summary follows two streams, that of the
dependencies and commits and that of the sampled cycles, with different counters. And the
end of a cycle is in two streams, since it closes the memory windows as well as the sample
of the cycle.
-/

namespace AccelProfile

namespace EventKind

/-- The streams of a run: kinds of events that some part of an accelerator follows. -/
def streams : List (List EventKind) :=
  [[.dependency, .commit], [.parallelism], [.stall, .noStall],
    [.memoryRead, .memoryWrite, .portContention, .busWidths, .cycleEnd],
    [.cycleStart, .cycleEnd], [.fuBusy, .fuContention, .fuInstances], [.power], [.area]]

end EventKind

namespace Event

/-- The events of some kinds, in the order of the run. -/
def stream (kinds : List EventKind) (events : List Event) : List Event :=
  events.filter fun event => event.kind ∈ kinds

/-- No event is of no kind. -/
theorem stream_nil (events : List Event) : stream [] events = [] :=
  List.filter_eq_nil_iff.2 fun event _ => by simp

/-- Two runs with the same streams, however they mix them. -/
def SameStreams (left right : List Event) : Prop :=
  ∀ kinds ∈ EventKind.streams, stream kinds left = stream kinds right

instance (left right : List Event) : Decidable (SameStreams left right) :=
  inferInstanceAs (Decidable (∀ kinds ∈ EventKind.streams, stream kinds left = stream kinds right))

end Event

section

variable {σ π : Type}

/-- A part of a state follows some kinds of events: these move the part by what it is, and
other events leave it alone. -/
structure Follows (step : σ → Event → σ) (part : σ → π) (kinds : List EventKind) : Prop where
  /-- What the part becomes depends on nothing but the part. -/
  moves : ∀ left right event, event.kind ∈ kinds → part left = part right →
    part (step left event) = part (step right event)
  /-- Events of other kinds leave the part alone. -/
  rests : ∀ state event, event.kind ∉ kinds → part (step state event) = part state

namespace Follows

variable {step : σ → Event → σ} {part : σ → π} {kinds : List EventKind}

/-- Equal parts stay equal along the same events. -/
theorem foldl_congr (follows : Follows step part kinds) (events : List Event) {left right : σ}
    (same : part left = part right) :
    part (events.foldl step left) = part (events.foldl step right) := by
  induction events generalizing left right with
  | nil => exact same
  | cons event events ih =>
    apply ih
    by_cases inside : event.kind ∈ kinds
    · exact follows.moves left right event inside same
    · rw [follows.rests left event inside, follows.rests right event inside]
      exact same

/-- The events outside the stream of a part make no difference to it. -/
theorem foldl_stream (follows : Follows step part kinds) (events : List Event) (state : σ) :
    part (events.foldl step state) = part ((Event.stream kinds events).foldl step state) := by
  induction events generalizing state with
  | nil => rfl
  | cons event events ih =>
    by_cases inside : event.kind ∈ kinds
    · have kept : Event.stream kinds (event :: events) = event :: Event.stream kinds events := by
        simp [Event.stream, inside]
      rw [kept]
      exact ih (step state event)
    · have dropped : Event.stream kinds (event :: events) = Event.stream kinds events := by
        simp [Event.stream, inside]
      have rests := follows.rests state event inside
      rw [dropped, List.foldl_cons, foldl_congr follows events rests]
      exact ih state

/-- Two runs with the same stream leave the part in the same state. -/
theorem foldl_eq (follows : Follows step part kinds) {left right : List Event}
    (same : Event.stream kinds left = Event.stream kinds right) (state : σ) :
    part (left.foldl step state) = part (right.foldl step state) := by
  rw [foldl_stream follows left, foldl_stream follows right, same]

end Follows

end

namespace Dataflow

/-- The counters of the sampled cycles. -/
def samples (dataflow : Dataflow) : Nat × Nat × Nat × Histogram :=
  (dataflow.maxReady, dataflow.issued, dataflow.sampledCycles, dataflow.readyHistogram)

/-- The dataflow as it would be without sampled cycles. -/
def withoutSamples (dataflow : Dataflow) : Dataflow :=
  { dataflow with maxReady := 0, issued := 0, sampledCycles := 0, readyHistogram := .empty }

/-- The two parts make up the dataflow. -/
theorem eq_of_parts {left right : Dataflow} (rest : left.withoutSamples = right.withoutSamples)
    (samples : left.samples = right.samples) : left = right := by
  cases left
  cases right
  simp only [withoutSamples, Dataflow.samples, mk.injEq, Prod.mk.injEq] at rest samples ⊢
  simp only [rest, samples, and_self]

end Dataflow

namespace Engine

/-- What dependencies and commits move: the graph, and the dataflow apart from the samples. -/
def recorded (engine : Engine) : DependencyGraph × Dataflow :=
  (engine.graph, engine.summary.dataflow.withoutSamples)

/-- What no event moves. -/
def settled (engine : Engine) :
    Config × Option CriticalPath × String × Performance × Option CycleSummary :=
  (engine.config, engine.path, engine.summary.acceleratorName, engine.summary.performance,
    engine.summary.cycles)

theorem follows_recorded : Follows apply recorded [.dependency, .commit] where
  moves left right event inside same := by
    cases event with
    | dependency edge =>
      exact congrArg (fun recorded =>
        let told := DependencyGraph.record recorded.1 edge.producer edge.consumer
        (told.1, { Dataflow.countEdge recorded.2 edge.kinds with
          maxDepth := told.2.getD recorded.2.maxDepth })) same
    | commit uid opcode isLoad isStore =>
      exact congrArg (fun recorded =>
        let next := DependencyGraph.commit recorded.1 uid opcode (OpClass.ofFlags isLoad isStore)
        (next, { Dataflow.countCommit recorded.2 (next.depths.depth uid) with
          maxDepth := next.depths.maxDepth })) same
    | _ => simp [Event.kind] at inside
  rests engine event outside := by
    cases event with
    | dependency | commit => simp [Event.kind] at outside
    | cycleEnd cycle sample => cases sample <;> rfl
    | _ => rfl

theorem follows_samples : Follows apply (·.summary.dataflow.samples) [.parallelism] where
  moves left right event inside same := by
    cases event with
    | parallelism ready issued =>
      exact congrArg (fun (maxReady, total, cycles, histogram) =>
        (max maxReady ready.toNat, satAdd total issued.toNat, cycles + 1,
          Histogram.add histogram ready.toNat)) same
    | _ => simp [Event.kind] at inside
  rests engine event outside := by
    cases event with
    | parallelism => simp [Event.kind] at outside
    | cycleEnd cycle sample => cases sample <;> rfl
    | _ => rfl

theorem follows_stalls : Follows apply (·.summary.stalls) [.stall, .noStall] where
  moves left right event inside same := by
    cases event with
    | stall cause => exact congrArg (StallBreakdown.record · cause) same
    | noStall => exact congrArg StallBreakdown.recordProgress same
    | _ => simp [Event.kind] at inside
  rests engine event outside := by
    cases event with
    | stall | noStall => simp [Event.kind] at outside
    | cycleEnd cycle sample => cases sample <;> rfl
    | _ => rfl

theorem follows_memory : Follows apply (·.summary.memory)
    [.memoryRead, .memoryWrite, .portContention, .busWidths, .cycleEnd] where
  moves left right event inside same := by
    cases event with
    | memoryRead access => exact congrArg (MemoryTraffic.recordRead · access) same
    | memoryWrite access => exact congrArg (MemoryTraffic.recordWrite · access) same
    | portContention isRead => exact congrArg (MemoryTraffic.recordPortStall · isRead) same
    | busWidths read write =>
      exact congrArg (MemoryTraffic.setBusWidths · read.toNat write.toNat) same
    | cycleEnd cycle sample => cases sample <;> exact congrArg MemoryTraffic.endCycle same
    | _ => simp [Event.kind] at inside
  rests engine event outside := by
    cases event with
    | memoryRead | memoryWrite | portContention | busWidths | cycleEnd =>
      simp [Event.kind] at outside
    | _ => rfl

theorem follows_window : Follows apply window [.cycleStart, .cycleEnd] where
  moves left right event inside same := by
    cases event with
    | cycleStart => exact congrArg (Option.map CycleWindow.start) same
    | cycleEnd cycle sample =>
      cases sample with
      | none => exact congrArg (Option.map (CycleWindow.finish · cycle)) same
      | some sample =>
        exact congrArg (fun window =>
          (window.map (CycleWindow.setCurrent · sample)).map (CycleWindow.finish · cycle)) same
    | _ => simp [Event.kind] at inside
  rests engine event outside := by
    cases event with
    | cycleStart | cycleEnd => simp [Event.kind] at outside
    | _ => rfl

theorem follows_units : Follows apply (·.summary.units) [.fuBusy, .fuContention, .fuInstances] where
  moves left right event inside same := by
    cases event with
    | fuBusy fu start stop => exact congrArg (FuUsage.recordBusy · fu start.toNat stop.toNat) same
    | fuContention fu => exact congrArg (FuUsage.recordContention · fu) same
    | fuInstances fu count => exact congrArg (FuUsage.setInstances · fu count.toNat) same
    | _ => simp [Event.kind] at inside
  rests engine event outside := by
    cases event with
    | fuBusy | fuContention | fuInstances => simp [Event.kind] at outside
    | cycleEnd cycle sample => cases sample <;> rfl
    | _ => rfl

theorem follows_power : Follows apply (·.summary.power) [.power] where
  moves left right event inside same := by
    cases event with
    | power inputs => rfl
    | _ => simp [Event.kind] at inside
  rests engine event outside := by
    cases event with
    | power => simp [Event.kind] at outside
    | cycleEnd cycle sample => cases sample <;> rfl
    | _ => rfl

theorem follows_area : Follows apply (·.summary.area) [.area] where
  moves left right event inside same := by
    cases event with
    | area inputs => rfl
    | _ => simp [Event.kind] at inside
  rests engine event outside := by
    cases event with
    | area => simp [Event.kind] at outside
    | cycleEnd cycle sample => cases sample <;> rfl
    | _ => rfl

theorem follows_settled : Follows apply settled [] where
  moves left right event inside same := absurd inside List.not_mem_nil
  rests engine event outside := by
    cases event with
    | cycleEnd cycle sample => cases sample <;> rfl
    | _ => rfl

/-- The parts make up the engine. -/
theorem eq_of_parts {left right : Engine} (recorded : left.recorded = right.recorded)
    (samples : left.summary.dataflow.samples = right.summary.dataflow.samples)
    (stalls : left.summary.stalls = right.summary.stalls)
    (memory : left.summary.memory = right.summary.memory) (window : left.window = right.window)
    (units : left.summary.units = right.summary.units)
    (power : left.summary.power = right.summary.power)
    (area : left.summary.area = right.summary.area) (settled : left.settled = right.settled) :
    left = right := by
  obtain ⟨graph, withoutSamples⟩ := Prod.mk.inj recorded
  have dataflow := Dataflow.eq_of_parts withoutSamples samples
  obtain ⟨config, graphLeft, windowLeft, path, summary⟩ := left
  obtain ⟨config', graphRight, windowRight, path', summary'⟩ := right
  cases summary
  cases summary'
  simp only [Engine.settled, Prod.mk.injEq] at settled
  simp only [mk.injEq, Summary.mk.injEq]
  exact ⟨settled.1, graph, window, settled.2.1, settled.2.2.1, settled.2.2.2.1, memory, dataflow,
    units, power, area, stalls, settled.2.2.2.2⟩

/-- An engine is determined by the streams of its events. -/
theorem foldl_apply_eq {left right : List Event} (same : Event.SameStreams left right)
    (engine : Engine) : left.foldl apply engine = right.foldl apply engine := by
  have none : Event.stream [] left = Event.stream [] right := by
    rw [Event.stream_nil, Event.stream_nil]
  apply eq_of_parts
  · exact follows_recorded.foldl_eq (same _ (by decide)) engine
  · exact follows_samples.foldl_eq (same _ (by decide)) engine
  · exact follows_stalls.foldl_eq (same _ (by decide)) engine
  · exact follows_memory.foldl_eq (same _ (by decide)) engine
  · exact follows_window.foldl_eq (same _ (by decide)) engine
  · exact follows_units.foldl_eq (same _ (by decide)) engine
  · exact follows_power.foldl_eq (same _ (by decide)) engine
  · exact follows_area.foldl_eq (same _ (by decide)) engine
  · exact follows_settled.foldl_eq none engine

end Engine

namespace Accelerator

theorem follows_committed : Follows apply committed [.dependency, .commit] where
  moves left right event inside same := by
    cases event with
    | dependency => exact same
    | commit => exact congrArg (· + 1) same
    | _ => simp [Event.kind] at inside
  rests accelerator event outside := by
    cases event with
    | commit => simp [Event.kind] at outside
    | _ => rfl

theorem follows_stallCycles : Follows apply stallCycles [.stall, .noStall] where
  moves left right event inside same := by
    cases event with
    | stall => exact congrArg (· + 1) same
    | noStall => exact same
    | _ => simp [Event.kind] at inside
  rests accelerator event outside := by
    cases event with
    | stall => simp [Event.kind] at outside
    | _ => rfl

theorem follows_cycles : Follows apply (fun accelerator =>
    (accelerator.totalCycles, accelerator.endedCycles)) [.cycleStart, .cycleEnd] where
  moves left right event inside same := by
    cases event with
    | cycleStart => exact same
    | cycleEnd cycle sample =>
      exact congrArg (fun cycles =>
        (max (max cycles.1 cycle.toNat) (cycles.2 + 1), cycles.2 + 1)) same
    | _ => simp [Event.kind] at inside
  rests accelerator event outside := by
    cases event with
    | cycleEnd => simp [Event.kind] at outside
    | _ => rfl

theorem follows_name : Follows apply name [] where
  moves left right event inside same := absurd inside List.not_mem_nil
  rests accelerator event outside := by cases event <;> rfl

/-- The engine of an accelerator accounts for the events of a trace and sees nothing else. -/
theorem engine_replay (accelerator : Accelerator) (events : List Event) :
    (accelerator.replay events).engine = accelerator.engine.map (events.foldl Engine.apply ·) := by
  induction events generalizing accelerator with
  | nil => simp [replay]
  | cons event events ih =>
    have next := ih (accelerator.apply event)
    simp only [replay, List.foldl_cons] at next ⊢
    rw [next]
    simp [apply, Option.map_map, Function.comp_def]

/-- A fresh accelerator with an engine has it still when it was told some events. -/
theorem engine_replay_withEngine (name : String) (config : Config) (events : List Event) :
    ((withEngine name config).replay events).engine =
      some (events.foldl Engine.apply ((Engine.start config).setName name)) :=
  engine_replay (withEngine name config) events

/-- The parts make up the accelerator. -/
theorem eq_of_parts {left right : Accelerator} (name : left.name = right.name)
    (engine : left.engine = right.engine)
    (cycles : (left.totalCycles, left.endedCycles) = (right.totalCycles, right.endedCycles))
    (stallCycles : left.stallCycles = right.stallCycles)
    (committed : left.committed = right.committed) : left = right := by
  cases left
  cases right
  simp only [Prod.mk.injEq] at cycles
  simp only [mk.injEq]
  exact ⟨name, engine, cycles.1, cycles.2, stallCycles, committed⟩

/-- An accelerator is determined by the streams of its events. -/
theorem replay_eq {left right : List Event} (same : Event.SameStreams left right)
    (accelerator : Accelerator) : accelerator.replay left = accelerator.replay right := by
  have none : Event.stream [] left = Event.stream [] right := by
    rw [Event.stream_nil, Event.stream_nil]
  apply eq_of_parts
  · exact follows_name.foldl_eq none accelerator
  · rw [engine_replay, engine_replay]
    congr 1
    funext engine
    exact engine.foldl_apply_eq same
  · exact follows_cycles.foldl_eq (same _ (by decide)) accelerator
  · exact follows_stallCycles.foldl_eq (same _ (by decide)) accelerator
  · exact follows_committed.foldl_eq (same _ (by decide)) accelerator

/-- Two traces that mix the same streams in different ways end alike: on fresh accelerators
with one name and one configuration, the end of the run gives the same summary, prints the
same text and writes the same files. -/
theorem mixed_streams_end_alike (name : String) (config : Config) {left right : List Event}
    (same : Event.SameStreams left right) (setupTime simTime : Float) (clockPeriod : Nat) :
    let closing (events : List Event) :=
      ((withEngine name config).replay events).finalize setupTime simTime clockPeriod
    closing left = closing right ∧
      ∃ summary, (closing left).result = .structured summary ∧
        (closing right).result = .structured summary := by
  intro closing
  have alike : closing left = closing right := by
    simp only [closing, replay_eq same]
  refine ⟨alike, ?_⟩
  -- A fresh accelerator has an engine, and no event takes it away.
  obtain ⟨engine, present⟩ : ∃ engine, ((withEngine name config).replay left).engine =
      some engine := ⟨_, engine_replay _ left⟩
  have structured : (closing left).result =
      .structured (((withEngine name config).replay left).closeEngine engine setupTime simTime
        clockPeriod).summary := by
    simp only [closing, finalize, present]
  exact ⟨_, structured, alike ▸ structured⟩

/-- A run of two cycles that tells each happening when it comes. -/
def mixedRun : List Event :=
  [.cycleStart, .dependency ⟨⟨1⟩, ⟨2⟩, .trueOnly⟩, .memoryRead ⟨.cache, some 64, 8, 3, true⟩,
    .stall .memoryLatency, .cycleEnd 1 (some .zero), .commit ⟨1⟩ ⟨7⟩ true false,
    .memoryWrite ⟨.spm, none, 4, 1, false⟩, .fuBusy .intAddSub 0 2, .parallelism 3 1,
    .cycleEnd 2 none, .noStall, .power .zero, .commit ⟨2⟩ ⟨8⟩ false true]

/-- The same run with the streams told one after the other, as far as that goes: both ends
of a cycle close the memory windows and the samples. -/
def sortedRun : List Event :=
  [.power .zero, .fuBusy .intAddSub 0 2, .parallelism 3 1, .stall .memoryLatency, .noStall,
    .dependency ⟨⟨1⟩, ⟨2⟩, .trueOnly⟩, .commit ⟨1⟩ ⟨7⟩ true false, .commit ⟨2⟩ ⟨8⟩ false true,
    .memoryRead ⟨.cache, some 64, 8, 3, true⟩, .cycleStart, .cycleEnd 1 (some .zero),
    .memoryWrite ⟨.spm, none, 4, 1, false⟩, .cycleEnd 2 none]

/-- The mixed and the sorted run have the same streams, and end alike. -/
theorem mixed_run_ends_like_sorted_run :
    Event.SameStreams mixedRun sortedRun ∧
    let closing (events : List Event) :=
      ((withEngine "gemm" .standard).replay events).finalize 0 0 10
    closing mixedRun = closing sortedRun ∧
      ∃ summary, (closing mixedRun).result = .structured summary ∧
        (closing sortedRun).result = .structured summary := by
  have same : Event.SameStreams mixedRun sortedRun := by decide
  exact ⟨same, mixed_streams_end_alike "gemm" .standard same 0 0 10⟩

end Accelerator

end AccelProfile
