import AccelProfile.Json.Decoder
/-!
# Instructions

A dynamic instruction is known by its identifier, which is unique within one run and
carries no other meaning. When it commits, its opcode and its class become known. The two
numbers are types of their own, so that neither can stand for the other.
-/

namespace AccelProfile

/-- The identifier of one dynamic instruction within a run. -/
structure Uid where
  val : UInt64
  deriving DecidableEq, Repr, Inhabited

/-- The opcode of a committed instruction. -/
structure Opcode where
  val : UInt32
  deriving DecidableEq, Repr, Inhabited

namespace Uid

/-- The identifier as a number. -/
def toNat (uid : Uid) : Nat :=
  uid.val.toNat

/-- An identifier is its number. -/
def toJson (uid : Uid) : Json :=
  .ofNat uid.toNat

/-- Reads an identifier. -/
def decoder : Decoder Uid := fun mode found =>
  (Decoder.word mode found).map Uid.mk

/-- Whether an identifier is at most another one. -/
def atMost (left right : Uid) : Bool :=
  left.toNat ≤ right.toNat

/-- Puts an identifier into an ascending list, unless it is there already. -/
def insert (uid : Uid) (sorted : List Uid) : List Uid :=
  if uid ∈ sorted then sorted else sorted.merge [uid] atMost

/-- The distinct identifiers of a list in ascending order. -/
def ascending (uids : List Uid) : List Uid :=
  uids.foldl (fun sorted uid => insert uid sorted) []

theorem mem_insert {uid added : Uid} {sorted : List Uid} :
    uid ∈ insert added sorted ↔ uid = added ∨ uid ∈ sorted := by
  rw [insert]
  split
  · next known => exact ⟨Or.inr, fun either => either.elim (· ▸ known) id⟩
  · rw [List.mem_merge, List.mem_singleton, or_comm]

/-- Equal numbers are equal identifiers. -/
theorem toNat_inj {left right : Uid} : left.toNat = right.toNat ↔ left = right := by
  obtain ⟨left⟩ := left
  obtain ⟨right⟩ := right
  simp [toNat, UInt64.toNat_inj]

/-- An ascending list has no repeats. -/
theorem nodup_of_ascends {uids : List Uid}
    (ascends : uids.Pairwise fun earlier later => earlier.toNat < later.toNat) : uids.Nodup := by
  refine List.Pairwise.imp ?_ ascends
  rintro earlier _ below rfl
  exact Nat.lt_irrefl _ below

/-- An ascending list stays ascending, and so without repeats, when an identifier is put
    into it. -/
theorem insert_ascending (added : Uid) {sorted : List Uid}
    (ascends : sorted.Pairwise fun earlier later => earlier.toNat < later.toNat) :
    (insert added sorted).Pairwise fun earlier later => earlier.toNat < later.toNat := by
  rw [insert]
  split
  · exact ascends
  · next fresh =>
    have ordered : (sorted.merge [added] atMost).Pairwise fun earlier later =>
        earlier.atMost later := by
      apply List.pairwise_merge
      · simpa only [atMost, decide_eq_true_eq] using fun _ _ _ => Nat.le_trans
      · simpa [atMost] using fun _ _ => Nat.le_total _ _
      · exact ascends.imp fun below => decide_eq_true (Nat.le_of_lt below)
      · exact List.pairwise_singleton _ _
    have distinct : (sorted.merge [added] atMost).Nodup := by
      rw [(List.merge_perm_append atMost).nodup_iff, List.nodup_append]
      refine ⟨nodup_of_ascends ascends, List.pairwise_singleton _ _, fun uid known other same => ?_⟩
      rw [List.mem_singleton.1 same]
      rintro rfl
      exact fresh known
    refine (ordered.and distinct).imp fun both => ?_
    exact Nat.lt_of_le_of_ne (of_decide_eq_true both.1) fun same => both.2 (toNat_inj.1 same)

/-- Sorting gives an ascending list. -/
theorem ascending_ascends (uids : List Uid) :
    (ascending uids).Pairwise fun earlier later => earlier.toNat < later.toNat := by
  suffices general : ∀ sorted : List Uid,
      sorted.Pairwise (fun earlier later => earlier.toNat < later.toNat) →
        (uids.foldl (fun sorted uid => insert uid sorted) sorted).Pairwise
          fun earlier later => earlier.toNat < later.toNat from
    general [] List.Pairwise.nil
  induction uids with
  | nil => exact fun _ ascends => ascends
  | cons head tail ih => exact fun _ ascends => ih _ (insert_ascending head ascends)

/-- An ascending list is determined by its members. -/
theorem ascending_ext {left right : List Uid}
    (leftAscends : left.Pairwise fun earlier later => earlier.toNat < later.toNat)
    (rightAscends : right.Pairwise fun earlier later => earlier.toNat < later.toNat)
    (same : ∀ uid, uid ∈ left ↔ uid ∈ right) : left = right := by
  have permuted : left.Perm right := (List.perm_ext_iff_of_nodup
    (nodup_of_ascends leftAscends) (nodup_of_ascends rightAscends)).2 same
  exact permuted.eq_of_pairwise
    (fun _ _ _ _ below above => absurd (Nat.lt_trans below above) (Nat.lt_irrefl _))
    leftAscends rightAscends

/-- Sorting keeps the members of a list. -/
theorem mem_ascending {uid : Uid} {uids : List Uid} : uid ∈ ascending uids ↔ uid ∈ uids := by
  suffices general : ∀ sorted : List Uid,
      uid ∈ uids.foldl (fun sorted uid => insert uid sorted) sorted ↔ uid ∈ uids ∨ uid ∈ sorted by
    simpa [ascending] using general []
  induction uids with
  | nil => simp
  | cons head tail ih =>
    intro sorted
    simp only [List.foldl_cons, ih, mem_insert, List.mem_cons]
    rw [or_left_comm, or_assoc]

end Uid

namespace Opcode

/-- The opcode as a number. -/
def toNat (opcode : Opcode) : Nat :=
  opcode.val.toNat

/-- An opcode is its number. -/
def toJson (opcode : Opcode) : Json :=
  .ofNat opcode.toNat

/-- Reads an opcode. -/
def decoder : Decoder Opcode := fun mode found =>
  (Decoder.halfWord mode found).map Opcode.mk

end Opcode

/-- The class of an instruction. -/
inductive OpClass
  /-- Reads memory. -/
  | load
  /-- Writes memory. -/
  | store
  /-- Neither reads nor writes memory. -/
  | compute
  /-- Not committed yet. -/
  | other
  deriving DecidableEq, Repr, Inhabited

namespace OpClass

/-- All classes. -/
def all : List OpClass :=
  [.load, .store, .compute, .other]

/-- The name of a class. -/
def name : OpClass → String
  | .load => "load"
  | .store => "store"
  | .compute => "compute"
  | .other => "other"

/-- The class of a commit from the flags it carries. A commit with both flags is a load,
    since the reading side commits first. -/
def ofFlags (isLoad isStore : Bool) : OpClass :=
  if isLoad then .load else if isStore then .store else .compute

/-- Whether the class touches memory. -/
def isMemory : OpClass → Bool
  | .load | .store => true
  | .compute | .other => false

/-- A class is its name. -/
def toJson (opClass : OpClass) : Json :=
  .str opClass.name

/-- Reads a class. -/
def decoder : Decoder OpClass :=
  Decoder.choice all name

end OpClass

end AccelProfile
