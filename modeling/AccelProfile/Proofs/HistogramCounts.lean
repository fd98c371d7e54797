import Mathlib.Data.List.Induction
import Mathlib.Data.List.Sort
import AccelProfile.FirstSeen
import AccelProfile.SortedTable

/-!
# What a histogram counts

A sorted table is determined by what it maps to what: its entries have no other order to stand
in. An update changes the value of one key. So a histogram maps each number that was observed to
the number of its observations, and the order of the observations makes no difference to it.
-/

namespace AccelProfile

namespace SortedTable

open FirstSeen (lookup_cons)

variable {α : Type}

/-- A key below all keys has no value. -/
theorem lookup_of_below {key : Nat} {entries : List (Nat × α)}
    (below : ∀ entry ∈ entries, key < entry.1) : entries.lookup key = none := by
  rw [List.lookup_eq_none_iff]
  intro entry inside
  simpa using Nat.ne_of_lt (below entry inside)

theorem lookup_updateEntries (key other : Nat) (change : Option α → α) {entries : List (Nat × α)}
    (sorted : entries.Pairwise fun earlier later => earlier.1 < later.1) :
    (updateEntries key change entries).lookup other =
      if other = key then some (change (entries.lookup key)) else entries.lookup other := by
  induction entries with
  | nil => simp only [updateEntries, lookup_cons, List.lookup_nil]
  | cons head tail ih =>
    obtain ⟨first, value⟩ := head
    obtain ⟨below, ascending⟩ := List.pairwise_cons.1 sorted
    simp only [updateEntries]
    split
    · next smaller =>
      have absent : ((first, value) :: tail).lookup key = none := by
        apply lookup_of_below
        intro entry inside
        rcases List.mem_cons.1 inside with rfl | later
        · exact smaller
        · exact Nat.lt_trans smaller (below entry later)
      rw [lookup_cons, absent]
    · split
      · next same =>
        subst same
        simp only [lookup_cons, if_true]
        split <;> rfl
      · next different =>
        simp only [lookup_cons, ih ascending, if_neg different]
        by_cases atFirst : other = first
        · have apart : ¬ other = key := fun same => different (same.symm.trans atFirst)
          rw [if_pos atFirst, if_neg apart, if_pos atFirst]
        · simp only [if_neg atFirst]

/-- An update changes the value of its key and of no other. -/
theorem get?_update (table : SortedTable α) (key other : Nat) (change : Option α → α) :
    (table.update key change).get? other =
      if other = key then some (change (table.get? key)) else table.get? other :=
  lookup_updateEntries key other change table.sorted

theorem lookup_eq_some_iff (key : Nat) (value : α) {entries : List (Nat × α)}
    (sorted : entries.Pairwise fun earlier later => earlier.1 < later.1) :
    entries.lookup key = some value ↔ (key, value) ∈ entries := by
  induction entries with
  | nil => simp
  | cons head tail ih =>
    obtain ⟨first, found⟩ := head
    obtain ⟨below, ascending⟩ := List.pairwise_cons.1 sorted
    rw [lookup_cons, List.mem_cons, Prod.mk.injEq]
    by_cases same : key = first
    · subst same
      have absent : (key, value) ∉ tail := fun inside =>
        Nat.lt_irrefl _ (below (key, value) inside)
      simp [absent, eq_comm]
    · simp [same, ih ascending]

/-- A table is determined by what it maps to what. -/
theorem eq_of_get?_eq {left right : SortedTable α} (same : ∀ key, left.get? key = right.get? key) :
    left = right := by
  obtain ⟨leftEntries, leftSorted⟩ := left
  obtain ⟨rightEntries, rightSorted⟩ := right
  have members (entry : Nat × α) : entry ∈ leftEntries ↔ entry ∈ rightEntries := by
    have lookups : leftEntries.lookup entry.1 = rightEntries.lookup entry.1 := same entry.1
    rw [← lookup_eq_some_iff _ _ leftSorted, ← lookup_eq_some_iff _ _ rightSorted, lookups]
  have : Std.Irrefl fun earlier later : Nat × α => earlier.1 < later.1 :=
    ⟨fun entry => Nat.lt_irrefl entry.1⟩
  have : Std.Antisymm fun earlier later : Nat × α => earlier.1 < later.1 :=
    ⟨fun _ _ below above => absurd (Nat.lt_trans below above) (Nat.lt_irrefl _)⟩
  obtain rfl := leftSorted.eq_of_mem_iff rightSorted (fun {entry} => members entry)
  rfl

end SortedTable

namespace Histogram

theorem count_add (histogram : Histogram) (added key : Nat) :
    (histogram.add added).count key = histogram.count key + if added = key then 1 else 0 := by
  simp only [count, add, SortedTable.get?_update]
  by_cases same : key = added
  · simp [same]
  · simp [same, Ne.symm same]

/-- A histogram maps each number that was observed to the number of its observations. -/
theorem get?_ofList (observed : List Nat) (key : Nat) :
    (ofList observed).get? key = if key ∈ observed then some (observed.count key) else none := by
  suffices general : ∀ histogram : Histogram,
      (observed.foldl add histogram).get? key =
        if key ∈ observed then some (histogram.count key + observed.count key)
        else histogram.get? key by
    simpa [ofList, count, SortedTable.get?, SortedTable.empty] using general SortedTable.empty
  induction observed with
  | nil => simp
  | cons head tail ih =>
    intro histogram
    have next : (histogram.add head).get? key =
        if key = head then some (histogram.count head + 1) else histogram.get? key :=
      SortedTable.get?_update histogram head key _
    simp only [List.foldl_cons, ih, next, count_add, List.count_cons, List.mem_cons, beq_iff_eq]
    by_cases same : key = head
    · subst same
      by_cases again : key ∈ tail
      · simp only [again, if_true, or_true, Option.some.injEq]
        omega
      · simp [again, List.count_eq_zero_of_not_mem again]
    · by_cases again : key ∈ tail <;> simp [again, same, Ne.symm same]

/-- The numbers in a histogram are those that were observed, each with the number of its
observations. -/
theorem get?_ofList_eq_some_iff (observed : List Nat) (key count : Nat) :
    (ofList observed).get? key = some count ↔ 0 < count ∧ observed.count key = count := by
  rw [get?_ofList]
  split
  · next seen =>
    have positive : 0 < observed.count key := List.count_pos_iff.2 seen
    rw [Option.some_inj]
    exact ⟨fun same => ⟨same ▸ positive, same⟩, And.right⟩
  · next unseen =>
    simp only [reduceCtorEq, List.count_eq_zero_of_not_mem unseen, false_iff, not_and]
    omega

theorem ofList_concat (observed : List Nat) (key : Nat) :
    ofList (observed ++ [key]) = (ofList observed).add key := by
  simp [ofList]

/-- An observation adds one to the total, so the total is the number of observations. -/
theorem total_ofList (observed : List Nat) : (ofList observed).total = observed.length := by
  induction observed using List.reverseRecOn with
  | nil => rfl
  | append_singleton observed key ih =>
    rw [ofList_concat, total_add, ih, List.length_append, List.length_singleton]

/-- The order of the observations makes no difference. -/
theorem ofList_perm {left right : List Nat} (permuted : left.Perm right) :
    ofList left = ofList right := by
  apply SortedTable.eq_of_get?_eq
  intro key
  simp only [get?_ofList, permuted.mem_iff, permuted.count_eq]

end Histogram

end AccelProfile
