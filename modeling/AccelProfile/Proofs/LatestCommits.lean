import AccelProfile.Proofs.EngineCalls
import AccelProfile.Proofs.RenamedGraphs

/-!
# Members by their latest commits

What a record holds besides its depth comes from the commits of its instruction alone. Edges see
instructions and raise them but tell nothing else, and each commit overwrites what the ones before
it told. So a record tells the latest commit of its instruction: a class other than that of an
instruction that has not committed, an opcode, and that it committed all come together or not at
all.

An analysis counts its members by class and by opcode. A member counts once in each of the two ways
if it has committed and in neither if it has not, so both ways of counting come to the number of
members that have committed.
-/

namespace AccelProfile

/-- Where each item makes the state anew, it is made by the last one. -/
theorem foldl_anew {σ α : Type} (make : α → σ) (state : σ) (items : List α) :
    items.foldl (fun _ item => make item) state = items.getLast?.elim state make := by
  induction items using List.reverseRecOn with
  | nil => rfl
  | append_singleton items item => simp

/-- What a commit tells of its instruction. -/
structure Commit where
  opcode : Opcode
  isLoad : Bool
  isStore : Bool
  deriving DecidableEq

namespace Commit

/-- The record of an instruction of which nothing is known but that commit. -/
def record (commit : Commit) : InstructionRecord :=
  ⟨leafDepth, OpClass.ofFlags commit.isLoad commit.isStore, some commit.opcode, true⟩

theorem committed_elim (commit? : Option Commit) :
    (commit?.elim .leaf record).committed = commit?.isSome := by
  cases commit? <;> rfl

/-- Instructions that have committed are loads, stores or neither. -/
theorem countP_classes (latest : Uid → Option Commit) (uids : List Uid) :
    uids.countP (fun uid => (latest uid).any (·.isLoad)) +
        uids.countP (fun uid => (latest uid).any fun commit => !commit.isLoad && commit.isStore) +
        uids.countP (fun uid => (latest uid).any fun commit => !commit.isLoad && !commit.isStore) =
      uids.countP fun uid => (latest uid).isSome := by
  induction uids with
  | nil => rfl
  | cons uid uids ih =>
    simp only [List.countP_cons, ← ih]
    cases latest uid with
    | none => simp
    | some commit =>
      obtain ⟨opcode, isLoad, isStore⟩ := commit
      cases isLoad <;> cases isStore <;> simp <;> omega

end Commit

/-! ## What records tell -/

namespace DepthTable

/-- What the record of an instruction tells besides its depth. -/
def told (table : DepthTable) (uid : Uid) : InstructionRecord :=
  { (table.record? uid).getD .leaf with depth := leafDepth }

theorem told_ensure (table : DepthTable) (uid other : Uid) :
    (table.ensure uid).told other = table.told other := by
  rw [told, record?_ensure]
  split
  · next same => rw [same, Option.getD_some, told]
  · rfl

theorem told_raise (table : DepthTable) (uid other : Uid) (candidate : Nat) :
    (table.raise uid candidate).1.told other = table.told other := by
  rw [told, record?_raise]
  split
  · next same => rw [same, Option.getD_some, told]
  · rfl

theorem told_commit (table : DepthTable) (uid other : Uid) (opcode : Opcode) (opClass : OpClass) :
    (table.commit uid opcode opClass).told other =
      if other = uid then ⟨leafDepth, opClass, some opcode, true⟩ else table.told other := by
  rw [told, record?_commit]
  split <;> rfl

/-- The class of a record is told, unless it is the one of an instruction that has not committed. -/
theorem any_opClass (table : DepthTable) (uid : Uid) {opClass : OpClass}
    (committed : opClass ≠ .other) :
    (table.record? uid).any (·.opClass = opClass) =
      decide ((table.told uid).opClass = opClass) := by
  cases known : table.record? uid <;> simp [told, known, InstructionRecord.leaf, committed.symm]

theorem bind_opcode (table : DepthTable) (uid : Uid) :
    (table.record? uid).bind (·.opcode) = (table.told uid).opcode := by
  cases known : table.record? uid <;> simp [told, known, InstructionRecord.leaf]

theorem any_committed (table : DepthTable) (uid : Uid) :
    (table.record? uid).any (·.committed) = (table.told uid).committed := by
  cases known : table.record? uid <;> simp [told, known, InstructionRecord.leaf]

end DepthTable

namespace Engine

/-- What a call commits of an instruction. -/
def Call.commitOf? (uid : Uid) : Call → Option Commit
  | .event (.commit other opcode isLoad isStore) =>
    if other = uid then some ⟨opcode, isLoad, isStore⟩ else none
  | _ => none

/-- The latest commit of an instruction in a run. -/
def latestCommit? (calls : List Call) (uid : Uid) : Option Commit :=
  (calls.filterMap (Call.commitOf? uid)).getLast?

/-- A call changes what a record tells only by a commit of its instruction. -/
theorem told_receive (engine : Engine) (call : Call) (uid : Uid) :
    (engine.receive call).graph.depths.told uid =
      (call.commitOf? uid).elim (engine.graph.depths.told uid) Commit.record := by
  cases call with
  | event event =>
    cases event with
    | dependency edge =>
      exact (DepthTable.told_raise _ _ _ _).trans (DepthTable.told_ensure _ _ _)
    | commit other opcode isLoad isStore =>
      have committed := engine.graph.depths.told_commit other uid opcode
        (OpClass.ofFlags isLoad isStore)
      by_cases same : other = uid
      · rw [if_pos same.symm] at committed
        rw [Call.commitOf?, if_pos same]
        exact committed
      · rw [if_neg (Ne.symm same)] at committed
        rw [Call.commitOf?, if_neg same]
        exact committed
    | cycleEnd cycle sample => cases sample <;> rfl
    | _ => rfl
  | _ => rfl

/-- The record of an instruction tells its latest commit. -/
theorem told_after (config : Config) (calls : List Call) (uid : Uid) :
    (after config calls).graph.depths.told uid =
      (latestCommit? calls uid).elim .leaf Commit.record := by
  have moved : (after config calls).graph.depths.told uid =
      (calls.filterMap (Call.commitOf? uid)).foldl (fun _ commit => commit.record) .leaf :=
    foldl_part (fun engine => engine.graph.depths.told uid)
      (fun engine call => told_receive engine call uid) (start config) calls
  rw [moved, foldl_anew]
  rfl

-- The second commit overwrites all that the first one told, and the edge tells nothing.
example :
    (after .standard [.event (.commit ⟨1⟩ ⟨7⟩ true true),
      .event (.dependency ⟨⟨2⟩, ⟨1⟩, .trueOnly⟩),
      .event (.commit ⟨1⟩ ⟨8⟩ false true)]).graph.depths.told ⟨1⟩ =
        ⟨1, .store, some ⟨8⟩, true⟩ := by decide

end Engine

/-! ## What an analysis counts -/

namespace CriticalPath

/-- The counts of a path are those of the latest commits of its members. -/
structure CountsCommits (path : CriticalPath) (latest : Uid → Option Commit) : Prop where
  loads : path.loads = path.members.countP fun uid => (latest uid).any (·.isLoad)
  stores : path.stores = path.members.countP fun uid =>
    (latest uid).any fun commit => !commit.isLoad && commit.isStore
  computes : path.computes = path.members.countP fun uid =>
    (latest uid).any fun commit => !commit.isLoad && !commit.isStore
  /-- The opcodes in the table are those under which members have committed. -/
  byOpcode : ∀ opcode count, path.byOpcode.get? opcode = some count ↔
    0 < count ∧ path.members.countP
      (fun uid => (latest uid).any fun commit => commit.opcode.toNat = opcode) = count
  total : path.byOpcode.total = path.members.countP fun uid => (latest uid).isSome

section Counting

variable {graph : DependencyGraph} {latest : Uid → Option Commit}
  (tells : ∀ uid, graph.depths.told uid = (latest uid).elim .leaf Commit.record)

include tells

/-- An analysis counts the members of a class by their latest commits, if its flags tell the
class. -/
theorem countMembers_opClass (members : List Uid) {opClass : OpClass}
    (committed : opClass ≠ .other) (ofFlags : Bool → Bool → Bool)
    (agrees : ∀ isLoad isStore,
      decide (OpClass.ofFlags isLoad isStore = opClass) = ofFlags isLoad isStore) :
    countMembers graph members (·.opClass = opClass) =
      members.countP fun uid =>
        (latest uid).any fun commit => ofFlags commit.isLoad commit.isStore := by
  apply List.countP_congr
  intro uid _
  rw [graph.depths.any_opClass uid committed, tells uid]
  cases latest uid with
  | none => simp [InstructionRecord.leaf, committed.symm]
  | some commit => rw [Option.elim_some, Commit.record, agrees, Option.any_some]

/-- The opcodes that an analysis counts are those of the latest commits. -/
theorem filterMap_opcode (members : List Uid) :
    members.filterMap (fun uid =>
        ((graph.depths.record? uid).bind (·.opcode)).map Opcode.toNat) =
      members.filterMap fun uid => (latest uid).map fun commit => commit.opcode.toNat := by
  apply List.filterMap_congr
  intro uid _
  rw [graph.depths.bind_opcode, tells uid]
  cases latest uid <;> rfl

/-- Where the records tell the latest commits, an analysis counts these. -/
theorem ofGraph_countsCommits : (ofGraph graph).CountsCommits latest where
  loads := countMembers_opClass tells _ (by decide) (fun isLoad _ => isLoad) (by decide)
  stores :=
    countMembers_opClass tells _ (by decide) (fun isLoad isStore => !isLoad && isStore) (by decide)
  computes :=
    countMembers_opClass tells _ (by decide) (fun isLoad isStore => !isLoad && !isStore) (by decide)
  byOpcode opcode count := by
    have same (uid : Uid) :
        ((latest uid).map (fun commit => commit.opcode.toNat) == some opcode) =
          (latest uid).any fun commit => commit.opcode.toNat = opcode := by
      cases latest uid <;> simp [beq_eq_decide]
    simp only [ofGraph, filterMap_opcode tells, Histogram.get?_ofList_eq_some_iff,
      List.count_filterMap, same]
  total := by
    simp only [ofGraph, filterMap_opcode tells, Histogram.total_ofList,
      List.length_filterMap_eq_countP, Option.isSome_map]

end Counting

end CriticalPath

namespace Engine

/-- After any run, an analysis counts each member once and by its latest commit: as a load if that
has the flag of a load, as a store if it has only the flag of a store, as a computation if it has
neither, and under its opcode. An opcode without such members has no entry. The counts of the
classes add up to those of the opcodes, and to the number of members whose record tells that they
committed. There are no more of these than members, and as many exactly if every member has
committed. -/
theorem members_count_by_latest_commit (config : Config) (calls : List Call) :
    let engine := (after config calls).analyse
    let latest := latestCommit? calls
    ∃ path, engine.path = some path ∧ path.members.Nodup ∧
      engine.summary.dataflow.pathInstructions = path.instructionCount ∧
      path.CountsCommits latest ∧
      path.loads + path.stores + path.computes = path.byOpcode.total ∧
      path.byOpcode.total =
        CriticalPath.countMembers engine.graph path.members (·.committed) ∧
      path.byOpcode.total ≤ path.instructionCount ∧
      (path.byOpcode.total = path.instructionCount ↔
        ∀ uid ∈ path.members, ∃ commit, latest uid = some commit) := by
  intro engine latest
  have tells := told_after config calls
  have counts := CriticalPath.ofGraph_countsCommits tells
  have distinct := Uid.nodup_of_ascends (CriticalPath.mark_ascends (after config calls).graph)
  refine ⟨_, rfl, distinct, rfl, counts, ?_, ?_, ?_, ?_⟩
  · rw [counts.loads, counts.stores, counts.computes, counts.total]
    exact Commit.countP_classes latest _
  · rw [counts.total]
    apply List.countP_congr
    intro uid _
    rw [DepthTable.any_committed]
    have told : engine.graph.depths.told uid = (latest uid).elim .leaf Commit.record := tells uid
    rw [told, Commit.committed_elim]
  · rw [counts.total]
    exact List.countP_le_length
  · rw [counts.total]
    simp only [← Option.isSome_iff_exists]
    exact List.countP_eq_length

end Engine

end AccelProfile
