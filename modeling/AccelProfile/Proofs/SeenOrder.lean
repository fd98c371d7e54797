import Mathlib.Data.List.Basic
import Mathlib.Data.List.Induction
import AccelProfile.Proofs.DepthOperations

/-!
# Instructions in first-seen order

A depth table is moved by operations on it, and a dependency graph on top of it by recorded edges
and commits. All of them come down to changing the record of one instruction or adding one, and an
edge does that twice, for its producer first. So the order in which a table lists its instructions
has nothing to do with what is done to them: it is the order in which they were mentioned, each at
its first mention. A list of mentions without its repeats is the library's `List.eraseDups`, which
keeps the first of equal items, and each change extends the list of mentions by one.

The deepest instructions are picked from that list and stay in its order.
-/

namespace AccelProfile

section FirstMentions

variable {α : Type} [DecidableEq α]

/-- One more mention is listed at the end, unless there was one before. -/
theorem eraseDups_concat (mentions : List α) (item : α) :
    (mentions ++ [item]).eraseDups =
      if item ∈ mentions then mentions.eraseDups else mentions.eraseDups ++ [item] := by
  rw [List.eraseDups_append]
  by_cases known : item ∈ mentions <;> simp [List.removeAll, List.eraseDups_cons, known]

/-- The items stand in the order of the places at which they were first mentioned. -/
theorem pairwise_idxOf_eraseDups (mentions : List α) :
    mentions.eraseDups.Pairwise fun earlier later =>
      mentions.idxOf earlier < mentions.idxOf later := by
  induction mentions using List.reverseRecOn with
  | nil => exact List.Pairwise.nil
  | append_singleton mentions item ih =>
    have places {earlier later : α} (earlierKnown : earlier ∈ mentions.eraseDups)
        (laterKnown : later ∈ mentions.eraseDups)
        (ordered : mentions.idxOf earlier < mentions.idxOf later) :
        (mentions ++ [item]).idxOf earlier < (mentions ++ [item]).idxOf later := by
      rwa [List.idxOf_append_of_mem (List.mem_eraseDups.1 earlierKnown),
        List.idxOf_append_of_mem (List.mem_eraseDups.1 laterKnown)]
    rw [eraseDups_concat]
    split
    · exact ih.imp_of_mem places
    · next unknown =>
      refine List.pairwise_append.2 ⟨ih.imp_of_mem places, List.pairwise_singleton _ _, ?_⟩
      intro earlier listed later new
      obtain rfl := List.mem_singleton.1 new
      have known : earlier ∈ mentions := List.mem_eraseDups.1 listed
      rw [List.idxOf_append_of_mem known, List.idxOf_append_of_notMem unknown]
      exact Nat.lt_of_lt_of_le (List.idxOf_lt_length_of_mem known) (Nat.le_add_right _ _)

end FirstMentions

/-- Changing a key mentions it once more. -/
theorem FirstSeen.keys_update_of_mentions {κ α : Type} [DecidableEq κ] {table : FirstSeen κ α}
    {mentions : List κ} (listed : table.keys = mentions.eraseDups) (key : κ)
    (change : Option α → α) :
    (table.update key change).keys = (mentions ++ [key]).eraseDups := by
  rw [keys_update, listed, eraseDups_concat]
  simp only [List.mem_eraseDups]

namespace DepthTable

/-- The table lists the instructions that were mentioned, each where it was mentioned first. -/
def Lists (table : DepthTable) (mentions : List Uid) : Prop :=
  table.records.keys = mentions.eraseDups

namespace Lists

variable {table : DepthTable} {mentions : List Uid}

theorem empty : Lists .empty [] :=
  rfl

/-- Seeing an instruction mentions it. -/
theorem ensure (lists : table.Lists mentions) (uid : Uid) :
    (table.ensure uid).Lists (mentions ++ [uid]) :=
  FirstSeen.keys_update_of_mentions lists uid _

/-- Raising an instruction mentions it, whether or not it gets deeper. -/
theorem raise (lists : table.Lists mentions) (uid : Uid) (candidate : Nat) :
    (table.raise uid candidate).1.Lists (mentions ++ [uid]) := by
  have updated (change : Option InstructionRecord → InstructionRecord) :=
    FirstSeen.keys_update_of_mentions lists uid change
  rw [DepthTable.raise]
  split
  · exact updated _
  · split <;> exact updated _

/-- Committing an instruction mentions it. That its record is changed a second time, to hold what
the commit tells, adds nothing. -/
theorem commit (lists : table.Lists mentions) (uid : Uid) (opcode : Opcode) (opClass : OpClass) :
    (table.commit uid opcode opClass).Lists (mentions ++ [uid]) := by
  have twice : (table.commit uid opcode opClass).Lists (mentions ++ [uid] ++ [uid]) :=
    FirstSeen.keys_update_of_mentions (lists.ensure uid) uid _
  rw [Lists, twice, eraseDups_concat (mentions ++ [uid])]
  exact if_pos (List.mem_append_right mentions (List.mem_singleton_self uid))

/-- Every operation mentions its instruction. -/
theorem perform (lists : table.Lists mentions) (operation : Operation) :
    (table.perform operation).Lists (mentions ++ [operation.uid]) := by
  cases operation with
  | ensure uid => exact lists.ensure uid
  | raise uid candidate => exact lists.raise uid candidate
  | commit uid opcode opClass => exact lists.commit uid opcode opClass

end Lists

/-- An instruction is listed exactly if it was seen. -/
theorem mem_keys_iff (table : DepthTable) (uid : Uid) :
    uid ∈ table.toList.map Prod.fst ↔ table.contains uid = true :=
  table.records.mem_keys_iff uid

/-- The deepest instructions are picked from the list of all instructions and keep its order. The
record next to an instruction in the list is the one that a query for its depth finds. -/
theorem deepest_eq_filter (table : DepthTable) :
    table.deepest =
      (table.toList.map Prod.fst).filter fun uid => table.depth uid = table.maxDepth := by
  rw [deepest, List.filter_map]
  congr 1
  refine List.filter_congr fun entry listed => ?_
  have known : table.record? entry.1 = some entry.2 :=
    (table.records.get?_eq_some_iff entry.1 entry.2).2 listed
  simp [depth, known]

end DepthTable

namespace DependencyGraph

/-- The instructions that a step mentions; an edge mentions its producer first. -/
def Step.mentions : Step → List Uid
  | .edge producer consumer => [producer, consumer]
  | .commit uid _ _ => [uid]

/-- One thing that is done to a dependency graph or to the table of depths below it. -/
inductive Action
  /-- An operation on the table. -/
  | operate (operation : DepthTable.Operation)
  /-- A step is recorded in the graph. -/
  | record (step : Step)

/-- The instructions that an action mentions, in the order in which it does. -/
def Action.mentions : Action → List Uid
  | .operate operation => [operation.uid]
  | .record step => step.mentions

/-- The graph after an action. -/
def act (graph : DependencyGraph) : Action → DependencyGraph
  | .operate operation => { graph with depths := graph.depths.perform operation }
  | .record step => graph.recordStep step

/-- The graph after any actions. -/
def acted (actions : List Action) : DependencyGraph :=
  actions.foldl act .empty

/-- An action mentions its instructions. An edge sees its producer before it raises its
consumer. -/
theorem lists_act {graph : DependencyGraph} {mentions : List Uid}
    (lists : graph.depths.Lists mentions) (action : Action) :
    (graph.act action).depths.Lists (mentions ++ action.mentions) := by
  cases action with
  | operate operation => exact lists.perform operation
  | record step =>
    cases step with
    | edge producer consumer =>
      have both := (lists.ensure producer).raise consumer
        (min ((graph.depths.ensure producer).depth producer + 1) maxHalfWord)
      rwa [List.append_assoc] at both
    | commit uid opcode opClass => exact lists.commit uid opcode opClass

/-- After any actions the table lists the instructions in the order of their first mentions. -/
theorem lists_acted (actions : List Action) :
    (acted actions).depths.Lists (actions.flatMap Action.mentions) := by
  induction actions using List.reverseRecOn with
  | nil => exact .empty
  | append_singleton actions action ih =>
    have next := lists_act ih action
    rwa [acted, List.foldl_append, List.flatMap_append, List.flatMap_singleton]

/-- After any operations on a table of depths, and any edges and commits that were recorded on top
of it in between or afterwards, the table lists exactly the instructions that were seen, with the
records that a query finds. Each is listed once, at the place of its first mention; an edge mentions
its producer before its consumer. What was listed at any time before is the front of the list,
unmoved. The deepest instructions are those of the list whose depth is the largest one, in its
order. -/
theorem instructions_stay_in_first_seen_order (actions : List Action) :
    let table := (acted actions).depths
    let mentions := actions.flatMap Action.mentions
    let listed := table.toList.map Prod.fst
    listed = mentions.eraseDups ∧
    listed.Nodup ∧
    (listed.Pairwise fun earlier later => mentions.idxOf earlier < mentions.idxOf later) ∧
    (∀ uid, uid ∈ listed ↔ table.contains uid = true) ∧
    (∀ uid record, (uid, record) ∈ table.toList ↔ table.record? uid = some record) ∧
    (∀ count, (acted (actions.take count)).depths.toList.map Prod.fst <+: listed) ∧
    table.deepest = listed.filter fun uid => table.depth uid = table.maxDepth := by
  intro table mentions listed
  have order : listed = mentions.eraseDups := lists_acted actions
  refine ⟨order, table.records.distinct, order ▸ pairwise_idxOf_eraseDups mentions,
    table.mem_keys_iff, fun uid record => (table.records.get?_eq_some_iff uid record).symm, ?_,
    table.deepest_eq_filter⟩
  intro count
  have before : (acted (actions.take count)).depths.toList.map Prod.fst =
      ((actions.take count).flatMap Action.mentions).eraseDups := lists_acted _
  have split : mentions = (actions.take count).flatMap Action.mentions ++
      (actions.drop count).flatMap Action.mentions := by
    rw [← List.flatMap_append, List.take_append_drop]
  rw [before, order, split, List.eraseDups_append]
  exact List.prefix_append _ _

-- A late producer is listed behind its consumer; raising and committing move nobody.
example : (acted [.record (.edge ⟨7⟩ ⟨3⟩), .operate (.raise ⟨5⟩ 2), .record (.edge ⟨1⟩ ⟨7⟩),
    .record (.commit ⟨3⟩ ⟨0⟩ .load), .operate (.raise ⟨3⟩ 4)]).depths.toList.map Prod.fst =
    [⟨7⟩, ⟨3⟩, ⟨5⟩, ⟨1⟩] := by decide

end DependencyGraph

end AccelProfile
