import Mathlib.Data.List.Induction
import AccelProfile.Proofs.EventStreams

/-!
# The two books of an accelerator

An accelerator counts its commits, stalls and cycles by itself, and its engine, if there is
one, accounts for the same events in the sections of its summary. The counts of the
accelerator are those of the events that it was told, whatever else is done with it: its
engine may be missing from the start, be reached and changed from outside, be taken out, or
be used up by the end of a run, and none of this shows in the counts. An engine that is gone
stays away.

Where the engine was there for all events and saw nothing else, its summary agrees with the
counts. The cycle count is kept as a running maximum of itself, the cycle that ends and the
number of ended cycles; it comes to the larger one of the number of ended cycles and the
largest of their numbers, in whatever order these come.
-/

namespace AccelProfile

namespace Event

/-- The number of the cycle that an event ends, if it ends one. -/
def cycleNumber? : Event → Option Nat
  | .cycleEnd cycle _ => some cycle.toNat
  | _ => none

/-- The numbers of the cycles that ended, in the order of the run. -/
def cycleNumbers (events : List Event) : List Nat :=
  events.filterMap cycleNumber?

theorem cycleNumbers_concat (events : List Event) (event : Event) :
    cycleNumbers (events ++ [event]) = cycleNumbers events ++ event.cycleNumber?.toList := by
  cases number : event.cycleNumber? <;> simp [cycleNumbers, number]

/-- One more event counts if it is of the kind that is counted. -/
theorem countP_concat (kind : EventKind) (events : List Event) (event : Event) :
    (events ++ [event]).countP (·.kind = kind) =
      events.countP (·.kind = kind) + if event.kind = kind then 1 else 0 := by
  simp [List.countP_singleton]

end Event

/-- What the events of a run come to. -/
structure Tally where
  committed : Nat
  stallCycles : Nat
  totalCycles : Nat
  deriving DecidableEq

namespace Tally

/-- The tally of a list of events. Every ended cycle counts, and so does every number up to
the largest one. -/
def ofEvents (events : List Event) : Tally where
  committed := events.countP (·.kind = .commit)
  stallCycles := events.countP (·.kind = .stall)
  totalCycles :=
    let numbers := Event.cycleNumbers events
    max numbers.length (numbers.foldl max 0)

end Tally

namespace Engine

theorem instructions_apply (engine : Engine) (event : Event) :
    (engine.apply event).summary.dataflow.instructions =
      engine.summary.dataflow.instructions + if event.kind = .commit then 1 else 0 := by
  cases event with
  | cycleEnd cycle sample => cases sample <;> rfl
  | _ => rfl

theorem stalls_apply (engine : Engine) (event : Event) :
    (engine.apply event).summary.stalls.totalCycles =
      engine.summary.stalls.totalCycles + if event.kind = .stall then 1 else 0 := by
  cases event with
  | cycleEnd cycle sample => cases sample <;> rfl
  | _ => rfl

/-- A new engine accounts for the commits and the stalls of the events that it is told. -/
theorem accounts_foldl (config : Config) (name : String) (events : List Event) :
    let summary := (events.foldl apply ((start config).setName name)).summary
    summary.dataflow.instructions = (Tally.ofEvents events).committed ∧
      summary.stalls.totalCycles = (Tally.ofEvents events).stallCycles := by
  induction events using List.reverseRecOn with
  | nil => exact ⟨rfl, rfl⟩
  | append_singleton events event ih =>
    obtain ⟨instructions, stalls⟩ := ih
    rw [List.foldl_append, List.foldl_cons, List.foldl_nil]
    constructor
    · rw [instructions_apply, instructions]
      exact (Event.countP_concat .commit events event).symm
    · rw [stalls_apply, stalls]
      exact (Event.countP_concat .stall events event).symm

end Engine

namespace Accelerator

/-- What can be done with an accelerator. -/
inductive Call
  /-- An event is told. -/
  | tell (event : Event)
  /-- The engine is reached, if it is there, and changed in any way. -/
  | reach (change : Engine → Engine)
  /-- The engine is taken out. -/
  | detach
  /-- The run is ended. -/
  | finalize (setupTime simTime : Float) (clockPeriod : Nat)

/-- The event that a call tells. -/
def Call.event? : Call → Option Event
  | .tell event => some event
  | .reach _ | .detach | .finalize .. => none

/-- Whether a call takes the engine away. -/
def Call.removes : Call → Bool
  | .detach | .finalize .. => true
  | .tell _ | .reach _ => false

/-- The accelerator after a call. -/
def receive (accelerator : Accelerator) : Call → Accelerator
  | .tell event => accelerator.apply event
  | .reach change => { accelerator with engine := accelerator.engine.map change }
  | .detach => accelerator.detach
  | .finalize setupTime simTime clockPeriod =>
    (accelerator.finalize setupTime simTime clockPeriod).accelerator

/-- The accelerator after a list of calls. -/
def after (accelerator : Accelerator) (calls : List Call) : Accelerator :=
  calls.foldl receive accelerator

/-- The events that a list of calls tells. -/
def told (calls : List Call) : List Event :=
  calls.filterMap Call.event?

/-- An accelerator of which nothing is known yet, with an engine of its own or without. -/
def fresh (name : String) (config? : Option Config) : Accelerator :=
  config?.elim (withoutEngine name) (withEngine name)

/-- The counts of an accelerator. -/
def tally (accelerator : Accelerator) : Tally :=
  ⟨accelerator.committed, accelerator.stallCycles, accelerator.totalCycles⟩

theorem after_concat (accelerator : Accelerator) (calls : List Call) (call : Call) :
    accelerator.after (calls ++ [call]) = (accelerator.after calls).receive call := by
  simp [after]

theorem told_concat (calls : List Call) (call : Call) :
    told (calls ++ [call]) = told calls ++ call.event?.toList := by
  cases event : call.event? <;> simp [told, event]

/-! ## The accelerator's own book -/

theorem committed_apply (accelerator : Accelerator) (event : Event) :
    (accelerator.apply event).committed =
      accelerator.committed + if event.kind = .commit then 1 else 0 := by
  cases event <;> rfl

theorem stallCycles_apply (accelerator : Accelerator) (event : Event) :
    (accelerator.apply event).stallCycles =
      accelerator.stallCycles + if event.kind = .stall then 1 else 0 := by
  cases event <;> rfl

theorem endedCycles_apply (accelerator : Accelerator) (event : Event) :
    (accelerator.apply event).endedCycles =
      accelerator.endedCycles + event.cycleNumber?.toList.length := by
  cases event <;> rfl

theorem totalCycles_apply (accelerator : Accelerator) (event : Event) :
    (accelerator.apply event).totalCycles =
      event.cycleNumber?.elim accelerator.totalCycles fun number =>
        max (max accelerator.totalCycles number) (accelerator.endedCycles + 1) := by
  cases event <;> rfl

/-- The counts of the accelerator are those of a list of events. The number of ended cycles
is kept beside them, since the cycle count is made from it. -/
structure Counted (accelerator : Accelerator) (events : List Event) : Prop where
  committed : accelerator.committed = (Tally.ofEvents events).committed
  stallCycles : accelerator.stallCycles = (Tally.ofEvents events).stallCycles
  endedCycles : accelerator.endedCycles = (Event.cycleNumbers events).length
  totalCycles : accelerator.totalCycles = (Tally.ofEvents events).totalCycles

theorem counted_fresh (name : String) (config? : Option Config) :
    Counted (fresh name config?) [] := by
  cases config? <;> exact ⟨rfl, rfl, rfl, rfl⟩

/-- An event is counted when it is told. -/
theorem Counted.apply {accelerator : Accelerator} {events : List Event}
    (counted : Counted accelerator events) (event : Event) :
    Counted (accelerator.apply event) (events ++ [event]) where
  committed := by
    rw [committed_apply, counted.committed]
    exact (Event.countP_concat .commit events event).symm
  stallCycles := by
    rw [stallCycles_apply, counted.stallCycles]
    exact (Event.countP_concat .stall events event).symm
  endedCycles := by
    rw [endedCycles_apply, counted.endedCycles, Event.cycleNumbers_concat, List.length_append]
  totalCycles := by
    have ended := counted.endedCycles
    have total := counted.totalCycles
    rw [totalCycles_apply]
    simp only [Tally.ofEvents, Event.cycleNumbers_concat] at total ⊢
    cases event.cycleNumber? with
    | none => simpa using total
    | some number =>
      -- One more cycle has ended, and its number may be the largest one.
      simp only [Option.elim_some, Option.toList_some, List.length_append, List.length_singleton,
        List.foldl_append, List.foldl_cons, List.foldl_nil]
      omega

/-- A call counts the event that it tells, and nothing if it tells none. -/
theorem Counted.receive {accelerator : Accelerator} {events : List Event}
    (counted : Counted accelerator events) (call : Call) :
    Counted (accelerator.receive call) (events ++ call.event?.toList) := by
  cases call with
  | tell event => exact counted.apply event
  | reach | detach =>
    simp only [Call.event?, Option.toList_none, List.append_nil]
    exact ⟨counted.committed, counted.stallCycles, counted.endedCycles, counted.totalCycles⟩
  | finalize setupTime simTime clockPeriod =>
    simp only [Call.event?, Option.toList_none, List.append_nil, Accelerator.receive, finalize]
    cases accelerator.engine <;>
      exact ⟨counted.committed, counted.stallCycles, counted.endedCycles, counted.totalCycles⟩

/-- After any calls the counts are those of the events that were told. -/
theorem counted_after (name : String) (config? : Option Config) (calls : List Call) :
    Counted ((fresh name config?).after calls) (told calls) := by
  induction calls using List.reverseRecOn with
  | nil => exact counted_fresh name config?
  | append_singleton calls call counted =>
    rw [after_concat, told_concat]
    exact counted.receive call

theorem name_receive (accelerator : Accelerator) (call : Call) :
    (accelerator.receive call).name = accelerator.name := by
  cases call with
  | tell event => cases event <;> rfl
  | reach change => rfl
  | detach => rfl
  | finalize setupTime simTime clockPeriod =>
    simp only [receive, finalize]
    cases accelerator.engine <;> rfl

theorem name_after (name : String) (config? : Option Config) (calls : List Call) :
    ((fresh name config?).after calls).name = name := by
  induction calls using List.reverseRecOn with
  | nil => cases config? <;> rfl
  | append_singleton calls call ih => rw [after_concat, name_receive, ih]

/-! ## Presence of the engine -/

/-- A call leaves the engine there unless it takes it away, and brings none back. -/
theorem isSome_engine_receive (accelerator : Accelerator) (call : Call) :
    (accelerator.receive call).engine.isSome = (accelerator.engine.isSome && !call.removes) := by
  cases call with
  | tell event => simp [receive, apply, Call.removes]
  | reach change => simp [receive, Call.removes]
  | detach => simp [receive, detach, Call.removes]
  | finalize setupTime simTime clockPeriod =>
    simp only [receive, finalize, Call.removes]
    cases missing : accelerator.engine <;> simp [detach, missing]

/-- The engine is there after any calls exactly if it was there before and none of them took
it away. -/
theorem isSome_engine_after (accelerator : Accelerator) (calls : List Call) :
    (accelerator.after calls).engine.isSome = true ↔
      accelerator.engine.isSome = true ∧ ∀ call ∈ calls, call.removes = false := by
  induction calls generalizing accelerator with
  | nil => simp [after]
  | cons call calls ih =>
    have next : accelerator.after (call :: calls) = (accelerator.receive call).after calls := rfl
    rw [next, ih, isSome_engine_receive]
    simp [and_assoc]

/-- Calls that only tell events are determined by them. -/
theorem eq_map_told {calls : List Call} (onlyEvents : ∀ call ∈ calls, call.event?.isSome = true) :
    calls = (told calls).map .tell := by
  induction calls with
  | nil => rfl
  | cons call calls ih =>
    have others : calls = (told calls).map .tell :=
      ih fun other inside => onlyEvents other (List.mem_cons_of_mem call inside)
    cases call with
    | tell event => exact congrArg (.tell event :: ·) others
    | reach | detach | finalize =>
      have isEvent := onlyEvents _ List.mem_cons_self
      cases isEvent

/-- Where events were all that was told, the accelerator has replayed them. -/
theorem after_map_tell (accelerator : Accelerator) (events : List Event) :
    accelerator.after (events.map .tell) = accelerator.replay events := by
  simp [after, replay, List.foldl_map, receive]

/-! ## Both books -/

/-- The end of a run hands the counts of the accelerator to the summary, and leaves what the
engine accounted for as it is. -/
theorem summary_closeEngine (accelerator : Accelerator) (engine : Engine)
    (setupTime simTime : Float) (clockPeriod : Nat) :
    let summary := (accelerator.closeEngine engine setupTime simTime clockPeriod).summary
    summary.performance.totalCycles = accelerator.totalCycles ∧
      summary.performance.stallCycles = accelerator.stallCycles ∧
      summary.dataflow.instructions = engine.summary.dataflow.instructions ∧
      summary.stalls.totalCycles = engine.summary.stalls.totalCycles :=
  ⟨rfl, rfl, rfl, rfl⟩

/-- Whatever is done with a fresh accelerator, with an engine or without: its counts are those
of the events that it was told. Its engine is there exactly if it had one and no call took it
away, and once it is missing no calls bring it back. The end of a run without an engine reports
the counts of all events so far, under the times it is given, and changes nothing. The end of a
run of an engine that saw the events and nothing else gives a summary with the same counts, in
the section of the times and cycles as well as where the engine accounted for the events. -/
theorem books_agree (name : String) (config? : Option Config) (calls : List Call) :
    let accelerator := (fresh name config?).after calls
    let tally := Tally.ofEvents (told calls)
    accelerator.tally = tally ∧
    (accelerator.engine.isSome = true ↔
      config?.isSome = true ∧ ∀ call ∈ calls, call.removes = false) ∧
    (accelerator.engine = none → ∀ later, (accelerator.after later).engine = none) ∧
    ∀ setupTime simTime clockPeriod,
      let closing := accelerator.finalize setupTime simTime clockPeriod
      (accelerator.engine = none →
        closing.result = .reduced
          { acceleratorName := name, setupTime, simTime, clockPeriod
            totalCycles := tally.totalCycles
            stallCycles := tally.stallCycles
            committed := tally.committed } ∧
        closing.accelerator = accelerator) ∧
      (config?.isSome = true → (∀ call ∈ calls, call.event?.isSome = true) →
        ∃ summary, closing.result = .structured summary ∧
          summary.performance.totalCycles = tally.totalCycles ∧
          summary.performance.stallCycles = tally.stallCycles ∧
          summary.dataflow.instructions = tally.committed ∧
          summary.stalls.totalCycles = tally.stallCycles) := by
  intro accelerator tally
  have counted : Counted accelerator (told calls) := counted_after name config? calls
  refine ⟨?_, ?_, ?_, ?_⟩
  · exact (Tally.mk.injEq ..).mpr ⟨counted.committed, counted.stallCycles, counted.totalCycles⟩
  · have present := isSome_engine_after (fresh name config?) calls
    cases config? <;> exact present
  · intro missing later
    have present := isSome_engine_after accelerator later
    rw [missing] at present
    simpa using present
  · intro setupTime simTime clockPeriod closing
    constructor
    · intro missing
      have named : accelerator.name = name := name_after name config? calls
      simp only [closing, finalize_of_none missing, reducedReport, named, counted.committed,
        counted.stallCycles, counted.totalCycles, tally, and_self]
    · intro hasEngine onlyEvents
      obtain ⟨config, rfl⟩ := Option.isSome_iff_exists.1 hasEngine
      have replayed : accelerator = (withEngine name config).replay (told calls) := by
        rw [← after_map_tell, ← eq_map_told onlyEvents]
        rfl
      have present := replayed ▸ engine_replay_withEngine name config (told calls)
      obtain ⟨instructions, stalls⟩ := Engine.accounts_foldl config name (told calls)
      obtain ⟨totalCycles, stallCycles, sameInstructions, sameStalls⟩ :=
        accelerator.summary_closeEngine _ setupTime simTime clockPeriod
      refine ⟨_, congrArg Closing.result (finalize_of_some present _ _ _), ?_, ?_, ?_, ?_⟩
      · exact totalCycles.trans counted.totalCycles
      · exact stallCycles.trans counted.stallCycles
      · exact sameInstructions.trans instructions
      · exact sameStalls.trans stalls

end Accelerator

end AccelProfile
