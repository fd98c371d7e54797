import Mathlib.Data.List.Induction
import AccelProfile.Proofs.Recording

/-!
# Operations on a depth table

A depth table is moved by three operations: an instruction is seen, raised or committed.
Edges raise instructions to a depth of at least one; here an instruction may be raised to
any depth, zero included, and the operations may come in any order.

An operation is about one instruction. It makes that one no shallower, leaves every other
record alone, and moves the largest depth up to the depth that it made, with one exception:
a raise that loses the comparison moves nothing, even if it is the first to mention its
instruction. So after lost raises alone there are leaves of which the largest depth knows
nothing. One operation of any other kind mends that for good.
-/

namespace AccelProfile.DepthTable

/-- One operation on a depth table. -/
inductive Operation
  /-- The instruction is seen. -/
  | ensure (uid : Uid)
  /-- The instruction is raised to a depth. -/
  | raise (uid : Uid) (candidate : Nat)
  /-- The instruction commits. -/
  | commit (uid : Uid) (opcode : Opcode) (opClass : OpClass)
  deriving DecidableEq

namespace Operation

/-- The instruction that an operation is about. -/
def uid : Operation → Uid
  | .ensure uid | .raise uid _ | .commit uid _ _ => uid

/-- The depth that an operation asks for. -/
def candidate : Operation → Nat
  | .raise _ candidate => candidate
  | .ensure _ | .commit .. => 0

/-- A raise that loses against the depth which its instruction has already. -/
def Lost (table : DepthTable) : Operation → Prop
  | .raise uid candidate => candidate ≤ table.depth uid
  | .ensure _ | .commit .. => False

end Operation

/-- The table after an operation. -/
def perform (table : DepthTable) : Operation → DepthTable
  | .ensure uid => table.ensure uid
  | .raise uid candidate => (table.raise uid candidate).1
  | .commit uid opcode opClass => table.commit uid opcode opClass

/-- The table after a list of operations. -/
def performed (operations : List Operation) : DepthTable :=
  operations.foldl perform .empty

theorem performed_concat (operations : List Operation) (operation : Operation) :
    performed (operations ++ [operation]) = (performed operations).perform operation := by
  simp [performed]

theorem performed_append (before behind : List Operation) :
    performed (before ++ behind) = behind.foldl perform (performed before) := by
  simp [performed]

/-! ## One operation -/

/-- An operation leaves the records of all other instructions as they are. -/
theorem record?_perform_of_ne (table : DepthTable) (operation : Operation) {other : Uid}
    (different : other ≠ operation.uid) :
    (table.perform operation).record? other = table.record? other := by
  cases operation with
  | ensure uid => exact (table.record?_ensure uid other).trans (if_neg different)
  | raise uid candidate => exact (table.record?_raise uid other candidate).trans (if_neg different)
  | commit uid opcode opClass =>
    exact (table.record?_commit uid other opcode opClass).trans (if_neg different)

/-- An operation sees its instruction. -/
theorem contains_perform (table : DepthTable) (operation : Operation) (other : Uid) :
    (table.perform operation).contains other =
      (decide (other = operation.uid) || table.contains other) := by
  cases operation with
  | ensure uid => exact table.contains_ensure uid other
  | raise uid candidate => exact table.contains_raise uid other candidate
  | commit uid opcode opClass => exact table.contains_commit uid other opcode opClass

/-- An operation moves the level of its instruction up to the depth that it asks for. -/
theorem level_perform (table : DepthTable) (operation : Operation) (other : Uid) :
    (table.perform operation).level other =
      if other = operation.uid then max (table.level other) operation.candidate
      else table.level other := by
  cases operation with
  | ensure uid => simp [perform, Operation.candidate]
  | raise uid candidate =>
    rw [perform, level_raise, Operation.uid, Operation.candidate]
    split
    · next same => rw [same]
    · rfl
  | commit uid opcode opClass => simp [perform, Operation.candidate]

/-- No operation makes an instruction shallower. -/
theorem level_le_perform (table : DepthTable) (operation : Operation) (uid : Uid) :
    table.level uid ≤ (table.perform operation).level uid := by
  rw [level_perform]
  split
  · exact Nat.le_max_left _ _
  · exact Nat.le_refl _

theorem depth_le_perform (table : DepthTable) (operation : Operation) (uid : Uid) :
    table.depth uid ≤ (table.perform operation).depth uid := by
  have grows := table.level_le_perform operation uid
  rw [depth_eq_level, depth_eq_level, contains_perform]
  cases seen : table.contains uid with
  | true => simpa using grows
  | false => simp

/-- A lost raise leaves the largest depth alone. -/
theorem maxDepth_perform_of_lost (table : DepthTable) {operation : Operation}
    (lost : operation.Lost table) : (table.perform operation).maxDepth = table.maxDepth := by
  cases operation with
  | raise uid candidate =>
    rw [perform, maxDepth_raise]
    exact if_pos lost
  | ensure => exact absurd lost not_false
  | commit => exact absurd lost not_false

/-- Every other operation moves the largest depth up to the level of its instruction. -/
theorem maxDepth_perform_of_not_lost (table : DepthTable) {operation : Operation}
    (stands : ¬ operation.Lost table) :
    (table.perform operation).maxDepth =
      max table.maxDepth ((table.perform operation).level operation.uid) := by
  cases operation with
  | ensure uid =>
    rw [perform, maxDepth_ensure, Operation.uid, level_ensure]
  | raise uid candidate =>
    have wins : ¬ candidate ≤ table.depth uid := stands
    have above : table.level uid ≤ candidate := by
      rw [depth_eq_level] at wins
      cases known : table.contains uid with
      | true =>
        rw [known, if_pos rfl] at wins
        omega
      | false =>
        have fresh := level_of_unseen known
        rw [known, if_neg Bool.false_ne_true] at wins
        simp only [leafDepth] at fresh
        omega
    rw [perform, maxDepth_raise, if_neg wins, Operation.uid, level_raise, if_pos rfl,
      Nat.max_eq_right above]
  | commit uid opcode opClass =>
    rw [perform, maxDepth_commit, Operation.uid, level_commit]

/-- No operation lowers the largest depth. -/
theorem maxDepth_le_perform (table : DepthTable) (operation : Operation) :
    table.maxDepth ≤ (table.perform operation).maxDepth := by
  by_cases lost : operation.Lost table
  · exact Nat.le_of_eq (table.maxDepth_perform_of_lost lost).symm
  · rw [table.maxDepth_perform_of_not_lost lost]
    exact Nat.le_max_left _ _

/-- Raising an instruction tells the largest depth exactly when it moved it, and then tells
the new one. -/
theorem told_raise_iff (table : DepthTable) (uid : Uid) (candidate told : Nat) :
    (table.raise uid candidate).2 = some told ↔
      (table.raise uid candidate).1.maxDepth ≠ table.maxDepth ∧
        told = (table.raise uid candidate).1.maxDepth := by
  by_cases loses : candidate ≤ table.depth uid
  · simp [raise, loses]
  · by_cases moves : table.maxDepth < candidate
    · simp only [raise, loses, moves, if_true, if_false, Option.some.injEq]
      omega
    · simp [raise, loses, moves]

/-! ## What every operation keeps -/

/-- Whatever was done to a table: no instruction is shallower than a leaf, those that were
seen are leaves or covered by the largest depth, and some instruction has the largest depth
unless it is zero. -/
structure Supported (table : DepthTable) : Prop where
  /-- No instruction is shallower than a leaf. -/
  leaf_le : ∀ uid, leafDepth ≤ table.level uid
  /-- No instruction is deeper than the largest depth, leaves apart. -/
  covered : ∀ uid, table.contains uid = true → table.level uid ≤ max table.maxDepth leafDepth
  /-- Some instruction has the largest depth, unless that is zero. -/
  attained : table.maxDepth = 0 ∨
    ∃ uid, table.contains uid = true ∧ table.level uid = table.maxDepth

theorem supported_empty : Supported empty where
  leaf_le := consistent_empty.leaf_le
  covered uid seen := Nat.le_trans (consistent_empty.bounded uid seen) (Nat.le_max_left _ _)
  attained := consistent_empty.attained

/-- An operation leaves its instruction a leaf, or covered by the largest depth. A lost raise
asks for no more than the instruction has, and a leaf is what it makes of a new one. -/
theorem Supported.covered_perform {table : DepthTable} (supported : Supported table)
    (operation : Operation) (uid : Uid) (seen : (table.perform operation).contains uid = true) :
    (table.perform operation).level uid ≤
      max (table.perform operation).maxDepth leafDepth := by
  have grows := table.maxDepth_le_perform operation
  by_cases same : uid = operation.uid
  · by_cases lost : operation.Lost table
    · cases operation with
      | raise raised candidate =>
        have asked : candidate ≤ table.depth raised := lost
        have leaf := supported.leaf_le raised
        rw [level_perform, if_pos same, show uid = raised from same, Operation.candidate]
        rw [depth_eq_level] at asked
        cases known : table.contains raised with
        | true =>
          have before := supported.covered raised known
          rw [known, if_pos rfl] at asked
          omega
        | false =>
          have fresh := level_of_unseen known
          rw [known, if_neg Bool.false_ne_true] at asked
          omega
      | ensure => exact absurd lost not_false
      | commit => exact absurd lost not_false
    · rw [table.maxDepth_perform_of_not_lost lost, ← same]
      exact Nat.le_trans (Nat.le_max_right _ _) (Nat.le_max_left _ _)
  · have known : table.contains uid = true := by simpa [contains_perform, same] using seen
    have before := supported.covered uid known
    rw [level_perform, if_neg same]
    omega

/-- An operation keeps a table supported. -/
theorem Supported.perform {table : DepthTable} (supported : Supported table)
    (operation : Operation) : Supported (table.perform operation) where
  leaf_le uid := Nat.le_trans (supported.leaf_le uid) (table.level_le_perform operation uid)
  covered := supported.covered_perform operation
  attained := by
    by_cases lost : operation.Lost table
    · -- The instruction that had the largest depth has it still: it cannot be deeper.
      rw [table.maxDepth_perform_of_lost lost]
      rcases supported.attained with zero | ⟨deepest, known, level⟩
      · exact Or.inl zero
      · have seen : (table.perform operation).contains deepest = true := by
          simp [contains_perform, known]
        have leaf := supported.leaf_le deepest
        have grows := table.level_le_perform operation deepest
        have bound := supported.covered_perform operation deepest seen
        rw [table.maxDepth_perform_of_lost lost] at bound
        exact Or.inr ⟨deepest, seen, by omega⟩
    · have largest := table.maxDepth_perform_of_not_lost lost
      by_cases moves : table.maxDepth ≤ (table.perform operation).level operation.uid
      · rw [Nat.max_eq_right moves] at largest
        exact Or.inr ⟨operation.uid, by simp [contains_perform], largest.symm⟩
      · rw [Nat.max_eq_left (Nat.le_of_not_le moves)] at largest
        rw [largest]
        rcases supported.attained with zero | ⟨deepest, known, level⟩
        · exact Or.inl zero
        · have different : deepest ≠ operation.uid := by
            rintro rfl
            exact moves (level ▸ table.level_le_perform operation operation.uid)
          refine Or.inr ⟨deepest, by simp [contains_perform, known], ?_⟩
          rw [level_perform, if_neg different, level]

/-- A table is supported after any list of operations. -/
theorem supported_performed (operations : List Operation) : Supported (performed operations) := by
  induction operations using List.reverseRecOn with
  | nil => exact supported_empty
  | append_singleton operations operation supported =>
    rw [performed_concat]
    exact supported.perform operation

/-- More operations make no instruction shallower. -/
theorem depth_le_foldl_perform (operations : List Operation) (table : DepthTable) (uid : Uid) :
    table.depth uid ≤ (operations.foldl perform table).depth uid := by
  induction operations generalizing table with
  | nil => exact Nat.le_refl _
  | cons operation operations ih =>
    exact Nat.le_trans (table.depth_le_perform operation uid) (ih (table.perform operation))

/-! ## When the largest depth is right -/

/-- The largest depth is the greatest depth of the instructions that were seen, and zero as
long as there are none. -/
structure KeepsLargest (table : DepthTable) : Prop where
  /-- No instruction that was seen is deeper than the largest depth. -/
  covers : ∀ uid, table.contains uid = true → table.depth uid ≤ table.maxDepth
  /-- Some instruction has the largest depth, unless that is zero. -/
  attained : table.maxDepth = 0 ∨
    ∃ uid, table.contains uid = true ∧ table.depth uid = table.maxDepth
  /-- The largest depth is zero exactly as long as no instruction was seen. -/
  zero_iff : table.maxDepth = 0 ↔ ∀ uid, table.contains uid = false

/-- All that can be wrong with the largest depth is that it is still zero although
instructions were seen. -/
theorem Supported.keepsLargest_iff {table : DepthTable} (supported : Supported table) :
    KeepsLargest table ↔ (table.maxDepth = 0 → ∀ uid, table.contains uid = false) := by
  constructor
  · intro keeps zero
    exact keeps.zero_iff.1 zero
  · intro none
    refine ⟨?_, ?_, none, ?_⟩
    · intro uid seen
      have bound := supported.covered uid seen
      have moved : table.maxDepth ≠ 0 := fun zero => by simp [none zero uid] at seen
      rw [depth_eq_level, if_pos seen]
      simp only [leafDepth] at bound
      omega
    · rcases supported.attained with zero | ⟨deepest, seen, level⟩
      · exact Or.inl zero
      · exact Or.inr ⟨deepest, seen, by rw [depth_eq_level, if_pos seen, level]⟩
    · intro unseen
      refine supported.attained.resolve_right ?_
      rintro ⟨uid, seen, -⟩
      simp [unseen uid] at seen

/-- The largest depth is still zero after an operation exactly if it was zero before and the
operation is a lost raise. -/
theorem Supported.maxDepth_perform_eq_zero_iff {table : DepthTable} (supported : Supported table)
    (operation : Operation) :
    (table.perform operation).maxDepth = 0 ↔ table.maxDepth = 0 ∧ operation.Lost table := by
  by_cases lost : operation.Lost table
  · simp [table.maxDepth_perform_of_lost lost, lost]
  · have leaf := (supported.perform operation).leaf_le operation.uid
    have largest := table.maxDepth_perform_of_not_lost lost
    simp only [leafDepth] at leaf
    simp only [lost, and_false, iff_false]
    omega

/-- The largest depth is still zero exactly if all operations so far were lost raises. -/
theorem maxDepth_performed_eq_zero_iff (operations : List Operation) :
    (performed operations).maxDepth = 0 ↔
      ∀ before operation behind, operations = before ++ operation :: behind →
        operation.Lost (performed before) := by
  induction operations using List.reverseRecOn with
  | nil => simp [performed, empty]
  | append_singleton operations operation ih =>
    rw [performed_concat, (supported_performed operations).maxDepth_perform_eq_zero_iff, ih]
    constructor
    · rintro ⟨earlier, last⟩ before other behind cut
      rcases List.eq_nil_or_concat behind with rfl | ⟨front, final, rfl⟩
      · obtain ⟨rfl, same⟩ := List.append_inj' cut rfl
        exact (List.cons.inj same).1 ▸ last
      · rw [List.concat_eq_append, ← List.cons_append, ← List.append_assoc] at cut
        obtain ⟨shorter, -⟩ := List.append_inj' cut rfl
        exact earlier before other front shorter
    · intro allLost
      refine ⟨fun before other behind cut => ?_, allLost operations operation [] rfl⟩
      exact allLost before other (behind ++ [operation]) (by simp [cut])

/-- As long as no operation was performed no instruction was seen, and only so long. -/
theorem unseen_performed_iff (operations : List Operation) :
    (∀ uid, (performed operations).contains uid = false) ↔ operations = [] := by
  rcases List.eq_nil_or_concat operations with rfl | ⟨front, last, rfl⟩
  · simp [performed, empty, contains, record?, FirstSeen.get?, FirstSeen.empty]
  · rw [List.concat_eq_append, performed_concat]
    constructor
    · intro unseen
      have seen := unseen last.uid
      simp [contains_perform] at seen
    · simp

/-- After any operations the largest depth is right, unless there were operations and all of
them were lost raises. -/
theorem keepsLargest_performed_iff (operations : List Operation) :
    KeepsLargest (performed operations) ↔
      operations = [] ∨ ∃ before operation behind, operations = before ++ operation :: behind ∧
        ¬ operation.Lost (performed before) := by
  rw [(supported_performed operations).keepsLargest_iff, unseen_performed_iff,
    maxDepth_performed_eq_zero_iff, imp_iff_or_not, or_congr_right]
  push Not
  rfl

/-- The largest depth is right all the time exactly if the first operation does not raise an
instruction to zero.

A first operation of any other kind moves the largest depth away from zero, where it never
returns to. -/
theorem keepsLargest_throughout_iff (operations : List Operation) :
    (∀ before behind, operations = before ++ behind → KeepsLargest (performed before)) ↔
      ∀ uid, operations.head? ≠ some (.raise uid 0) := by
  constructor
  · intro keeps uid first
    obtain ⟨rest, rfl⟩ := List.head?_eq_some_iff.1 first
    have lost : (Operation.raise uid 0).Lost empty := Nat.zero_le _
    have zero : (performed [.raise uid 0]).maxDepth = 0 := maxDepth_perform_of_lost empty lost
    have unseen := (keeps [.raise uid 0] rest rfl).zero_iff.1 zero
    exact List.cons_ne_nil _ _ ((unseen_performed_iff _).1 unseen)
  · intro notZero before behind cut
    rw [keepsLargest_performed_iff]
    cases before with
    | nil => exact Or.inl rfl
    | cons first rest =>
      refine Or.inr ⟨[], first, rest, rfl, ?_⟩
      intro lost
      cases first with
      | raise uid candidate =>
        obtain rfl : candidate = 0 := Nat.le_zero.1 lost
        exact notZero uid (by simp [cut])
      | ensure => exact lost
      | commit => exact lost

/-- After any operations no instruction that was seen is shallower than a leaf, and none is
shallower than it was at any time before. Each operation on the way left every record but
that of its own instruction alone, and each raise told the largest depth exactly when it
moved it, and then told the new one.

The largest depth is the greatest depth of the instructions that were seen after any
operations but lost raises alone; then it is still zero, and they are all leaves. So it is
right all the time exactly if the first operation does not raise an instruction to zero. -/
theorem largest_depth_right_iff (operations : List Operation) :
    let table := performed operations
    (∀ uid, table.contains uid = true → leafDepth ≤ table.depth uid) ∧
    (∀ before behind, operations = before ++ behind →
      ∀ uid, (performed before).depth uid ≤ table.depth uid) ∧
    (∀ before operation behind, operations = before ++ operation :: behind →
      ∀ other, other ≠ operation.uid →
        (performed (before ++ [operation])).record? other = (performed before).record? other) ∧
    (∀ before uid candidate behind, operations = before ++ .raise uid candidate :: behind →
      ∀ told, ((performed before).raise uid candidate).2 = some told ↔
        (performed (before ++ [.raise uid candidate])).maxDepth ≠ (performed before).maxDepth ∧
          told = (performed (before ++ [.raise uid candidate])).maxDepth) ∧
    (KeepsLargest table ↔
      operations = [] ∨ ∃ before operation behind, operations = before ++ operation :: behind ∧
        ¬ operation.Lost (performed before)) ∧
    (¬ KeepsLargest table →
      table.maxDepth = 0 ∧ ∀ uid, table.contains uid = true → table.depth uid = leafDepth) ∧
    ((∀ before behind, operations = before ++ behind → KeepsLargest (performed before)) ↔
      ∀ uid, operations.head? ≠ some (.raise uid 0)) := by
  intro table
  have supported : Supported table := supported_performed operations
  have leaf {uid : Uid} (seen : table.contains uid = true) : leafDepth ≤ table.depth uid := by
    rw [depth_eq_level, if_pos seen]
    exact supported.leaf_le uid
  refine ⟨fun uid seen => leaf seen, ?_, ?_, ?_, keepsLargest_performed_iff operations, ?_,
    keepsLargest_throughout_iff operations⟩
  · rintro before behind rfl uid
    simp only [table, performed_append]
    exact depth_le_foldl_perform behind (performed before) uid
  · intro before operation behind _ other different
    rw [performed_concat]
    exact record?_perform_of_ne _ operation different
  · intro before uid candidate behind _ told
    rw [performed_concat]
    exact told_raise_iff (performed before) uid candidate told
  · intro wrong
    rw [supported.keepsLargest_iff] at wrong
    push Not at wrong
    obtain ⟨zero, -⟩ := wrong
    refine ⟨zero, fun uid seen => ?_⟩
    have bound := supported.covered uid seen
    have atLeast := leaf seen
    rw [depth_eq_level, if_pos seen] at atLeast ⊢
    rw [zero] at bound
    omega

/-- The largest depth is not right after every list of operations: an instruction that is
first mentioned by raising it to zero is a leaf, and the largest depth stays at zero. -/
theorem raise_to_zero_overlooked :
    ¬ ∀ operations : List Operation, KeepsLargest (performed operations) := by
  intro keeps
  have seen : (performed [.raise ⟨1⟩ 0]).contains ⟨1⟩ = true := by decide
  have covers := (keeps [.raise ⟨1⟩ 0]).covers ⟨1⟩ seen
  exact absurd covers (by decide)

end AccelProfile.DepthTable
