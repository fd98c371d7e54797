import AccelProfile.Instruction
import AccelProfile.FirstSeen
import AccelProfile.SortedTable
/-!
# Dependency depths

The depth of an instruction is one more than the number of edges of the longest chain of
dependencies that was seen to end at it. An instruction without producers has depth one;
one that was never seen has depth zero. Depths only grow. They follow the edges in the
order in which these come in: an edge into a producer that is recorded late does not
deepen the consumers that were recorded before.

The table also keeps the largest depth. It is moved by every operation that makes a
depth larger than it, with one gap: an instruction that is first seen by being raised to
depth zero gets depth one without moving it.
-/

namespace AccelProfile

/-- What is known of one instruction. -/
structure InstructionRecord where
  /-- The depth, at least one. -/
  depth : Nat
  /-- The class, known once the instruction commits. -/
  opClass : OpClass
  /-- The opcode, known once the instruction commits. -/
  opcode : Option Opcode
  committed : Bool
  deriving DecidableEq, Repr

/-- The depth of an instruction without producers. -/
def leafDepth : Nat := 1

namespace InstructionRecord

/-- An instruction of which nothing but its existence is known. -/
def leaf : InstructionRecord :=
  ⟨leafDepth, .other, none, false⟩

/-- A record as an object. -/
def toJson (record : InstructionRecord) : Json :=
  .obj [("depth", .ofNat record.depth), ("class", record.opClass.toJson),
    ("opcode", .ofOption Opcode.toJson record.opcode), ("committed", .bool record.committed)]

end InstructionRecord

/-- The records of all instructions seen so far, in first-seen order. -/
structure DepthTable where
  records : FirstSeen Uid InstructionRecord
  /-- The largest depth that an operation moved to. -/
  maxDepth : Nat

namespace DepthTable

/-- The table before anything was seen. -/
def empty : DepthTable :=
  ⟨.empty, 0⟩

/-- The record of an instruction. -/
def record? (table : DepthTable) (uid : Uid) : Option InstructionRecord :=
  table.records.get? uid

/-- The depth of an instruction, zero if it was never seen. -/
def depth (table : DepthTable) (uid : Uid) : Nat :=
  match table.record? uid with
  | some record => record.depth
  | none => 0

/-- Whether an instruction was seen. -/
def contains (table : DepthTable) (uid : Uid) : Bool :=
  (table.record? uid).isSome

/-- The number of instructions seen. -/
def size (table : DepthTable) : Nat :=
  table.records.size

/-- The instructions with their records, in first-seen order. -/
def toList (table : DepthTable) : List (Uid × InstructionRecord) :=
  table.records.entries

/-- Sees an instruction: a new one becomes a leaf, a known one stays as it is. -/
def ensure (table : DepthTable) (uid : Uid) : DepthTable :=
  { records := table.records.update uid (·.getD .leaf)
    maxDepth := max table.maxDepth (if table.contains uid then table.depth uid else leafDepth) }

/-- Raises an instruction to a depth if that is deeper than what it has, and tells the
    largest depth if that moved. A new instruction counts as depth zero for the
    comparison, and is a leaf when it loses it. -/
def raise (table : DepthTable) (uid : Uid) (candidate : Nat) : DepthTable × Option Nat :=
  if candidate ≤ table.depth uid then
    ({ table with records := table.records.update uid (·.getD .leaf) }, none)
  else
    let records := table.records.update uid fun known =>
      { known.getD .leaf with depth := candidate }
    if table.maxDepth < candidate then (⟨records, candidate⟩, some candidate)
    else (⟨records, table.maxDepth⟩, none)

/-- Commits an instruction under an opcode and a class, seeing it first if it is new. -/
def commit (table : DepthTable) (uid : Uid) (opcode : Opcode) (opClass : OpClass) :
    DepthTable :=
  let seen := table.ensure uid
  { seen with
    records := seen.records.update uid fun known =>
      { known.getD .leaf with opClass, opcode := some opcode, committed := true } }

/-- The depth from which an operation on an instruction starts: the depth that it has, or
    that of a leaf if it was never seen. -/
def level (table : DepthTable) (uid : Uid) : Nat :=
  ((table.record? uid).getD .leaf).depth

/-- The depth of an instruction is its level once it was seen. -/
theorem depth_eq_level (table : DepthTable) (uid : Uid) :
    table.depth uid = if table.contains uid then table.level uid else 0 := by
  cases known : table.record? uid <;> simp [depth, contains, level, known]

/-- An instruction that was never seen starts as a leaf. -/
theorem level_of_unseen {table : DepthTable} {uid : Uid} (unseen : table.contains uid = false) :
    table.level uid = leafDepth := by
  simp only [contains, Option.isSome_eq_false_iff, Option.isNone_iff_eq_none] at unseen
  simp [level, unseen, InstructionRecord.leaf]

/-- The table is of size zero exactly as long as no instruction was seen. -/
theorem size_eq_zero_iff (table : DepthTable) :
    table.size = 0 ↔ ∀ uid, table.contains uid = false := by
  simp only [size, FirstSeen.size, List.length_eq_zero_iff]
  constructor
  · intro none uid
    simp [contains, record?, FirstSeen.get?, none]
  · intro unseen
    apply List.eq_nil_iff_forall_not_mem.2
    rintro ⟨uid, record⟩ member
    have known : table.record? uid = some record :=
      (table.records.get?_eq_some_iff uid record).2 member
    simpa [contains, known] using unseen uid

/-- Seeing an instruction gives it a record if it has none, and changes no other. -/
theorem record?_ensure (table : DepthTable) (uid other : Uid) :
    (table.ensure uid).record? other =
      if other = uid then some ((table.record? uid).getD .leaf) else table.record? other :=
  FirstSeen.get?_update table.records uid other _

/-- Raising an instruction changes nothing but its depth, and that only upwards. -/
theorem record?_raise (table : DepthTable) (uid other : Uid) (candidate : Nat) :
    (table.raise uid candidate).1.record? other =
      if other = uid then
        some { (table.record? uid).getD .leaf with depth := max (table.level uid) candidate }
      else table.record? other := by
  by_cases loses : candidate ≤ table.depth uid
  · have lookup : (table.raise uid candidate).1.record? other =
        if other = uid then some ((table.record? uid).getD .leaf) else table.record? other := by
      simp only [raise, loses, if_true]
      exact FirstSeen.get?_update table.records uid other _
    have bound : candidate ≤ table.level uid := by
      rw [depth_eq_level] at loses
      split at loses <;> omega
    rw [lookup, Nat.max_eq_left bound]
    rfl
  · have lookup : (table.raise uid candidate).1.record? other =
        if other = uid then some { (table.record? uid).getD .leaf with depth := candidate }
        else table.record? other := by
      by_cases moves : table.maxDepth < candidate <;>
        simp only [raise, loses, moves, if_true, if_false] <;>
        exact FirstSeen.get?_update table.records uid other _
    have bound : table.level uid ≤ candidate := by
      cases known : table.record? uid with
      | none =>
        simp only [depth, known] at loses
        simp only [level, known, Option.getD_none, InstructionRecord.leaf, leafDepth]
        omega
      | some record =>
        simp only [depth, known] at loses
        simp only [level, known, Option.getD_some]
        omega
    rw [lookup, Nat.max_eq_right bound]

/-- Committing an instruction sets what a commit tells and changes no other record. -/
theorem record?_commit (table : DepthTable) (uid other : Uid) (opcode : Opcode)
    (opClass : OpClass) :
    (table.commit uid opcode opClass).record? other =
      if other = uid then
        some { (table.record? uid).getD .leaf with
          opClass, opcode := some opcode, committed := true }
      else table.record? other := by
  have updated : (table.commit uid opcode opClass).record? other = if other = uid then
      some { ((table.ensure uid).record? uid).getD .leaf with
        opClass, opcode := some opcode, committed := true }
      else (table.ensure uid).record? other :=
    FirstSeen.get?_update (table.ensure uid).records uid other _
  have seen : (table.ensure uid).record? uid = some ((table.record? uid).getD .leaf) := by
    rw [record?_ensure, if_pos rfl]
  rw [updated, seen, record?_ensure]
  split <;> rfl

/-- Seeing an instruction adds it to those that were seen. -/
@[simp]
theorem contains_ensure (table : DepthTable) (uid other : Uid) :
    (table.ensure uid).contains other = (decide (other = uid) || table.contains other) := by
  by_cases same : other = uid <;> simp [contains, record?_ensure, same]

/-- Seeing an instruction moves no level. -/
@[simp]
theorem level_ensure (table : DepthTable) (uid other : Uid) :
    (table.ensure uid).level other = table.level other := by
  by_cases same : other = uid <;> simp [level, record?_ensure, same]

/-- Seeing an instruction moves the largest depth up to its level. -/
@[simp]
theorem maxDepth_ensure (table : DepthTable) (uid : Uid) :
    (table.ensure uid).maxDepth = max table.maxDepth (table.level uid) := by
  cases known : table.record? uid <;>
    simp [ensure, contains, depth, level, known, InstructionRecord.leaf]

/-- Raising an instruction adds it to those that were seen. -/
@[simp]
theorem contains_raise (table : DepthTable) (uid other : Uid) (candidate : Nat) :
    (table.raise uid candidate).1.contains other =
      (decide (other = uid) || table.contains other) := by
  by_cases same : other = uid <;> simp [contains, record?_raise, same]

/-- Raising an instruction moves its level up to the candidate, and no other level. -/
@[simp]
theorem level_raise (table : DepthTable) (uid other : Uid) (candidate : Nat) :
    (table.raise uid candidate).1.level other =
      if other = uid then max (table.level uid) candidate else table.level other := by
  by_cases same : other = uid <;> simp [level, record?_raise, same]

/-- Raising an instruction moves the largest depth up to the candidate, unless the
    instruction is that deep already. -/
@[simp]
theorem maxDepth_raise (table : DepthTable) (uid : Uid) (candidate : Nat) :
    (table.raise uid candidate).1.maxDepth =
      if candidate ≤ table.depth uid then table.maxDepth else max table.maxDepth candidate := by
  by_cases loses : candidate ≤ table.depth uid
  · simp only [raise, loses, if_true]
  · by_cases moves : table.maxDepth < candidate <;>
      simp only [raise, loses, moves, if_true, if_false]
    · exact (Nat.max_eq_right (Nat.le_of_lt moves)).symm
    · exact (Nat.max_eq_left (Nat.le_of_not_lt moves)).symm

/-- Committing an instruction adds it to those that were seen. -/
@[simp]
theorem contains_commit (table : DepthTable) (uid other : Uid) (opcode : Opcode)
    (opClass : OpClass) :
    (table.commit uid opcode opClass).contains other =
      (decide (other = uid) || table.contains other) := by
  by_cases same : other = uid <;> simp [contains, record?_commit, same]

/-- Committing an instruction moves no level. -/
@[simp]
theorem level_commit (table : DepthTable) (uid other : Uid) (opcode : Opcode)
    (opClass : OpClass) : (table.commit uid opcode opClass).level other = table.level other := by
  by_cases same : other = uid <;> simp [level, record?_commit, same]

/-- Committing an instruction moves the largest depth as seeing it does. -/
@[simp]
theorem maxDepth_commit (table : DepthTable) (uid : Uid) (opcode : Opcode) (opClass : OpClass) :
    (table.commit uid opcode opClass).maxDepth = max table.maxDepth (table.level uid) :=
  maxDepth_ensure table uid

/-- How many instructions have each depth. -/
def histogram (table : DepthTable) : Histogram :=
  .ofList (table.toList.map fun (_, record) => record.depth)

/-- The instructions whose depth is the largest one, in first-seen order. -/
def deepest (table : DepthTable) : List Uid :=
  (table.toList.filter fun (_, record) => record.depth = table.maxDepth).map Prod.fst

/-- The deepest instructions are those that were seen and have the largest depth. -/
theorem mem_deepest_iff (table : DepthTable) (uid : Uid) :
    uid ∈ table.deepest ↔ table.contains uid = true ∧ table.depth uid = table.maxDepth := by
  have listed : uid ∈ table.deepest ↔
      ∃ record, table.record? uid = some record ∧ record.depth = table.maxDepth := by
    simp [deepest, toList, record?, FirstSeen.get?_eq_some_iff]
  rw [listed]
  cases known : table.record? uid <;> simp [contains, depth, known]

end DepthTable

end AccelProfile
