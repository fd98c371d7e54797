import AccelProfile.Json.Value
import AccelProfile.Words
/-!
# Sorted tables and histograms

A table from numbers to values whose entries stand in ascending order of their keys. That
order is part of the type, so a table is determined by what it maps to what. A histogram
is such a table of counts: adding an observation adds one to the count of its key.
-/

namespace AccelProfile

/-- A table whose entries stand in strictly ascending order of their keys. -/
structure SortedTable (α : Type) where
  /-- The keys with their values. -/
  entries : List (Nat × α)
  /-- Keys ascend from entry to entry. -/
  sorted : entries.Pairwise fun earlier later => earlier.1 < later.1

namespace SortedTable

variable {α : Type}

/-- The entries with the value of one key changed, or the key added in its place. -/
def updateEntries (key : Nat) (change : Option α → α) : List (Nat × α) → List (Nat × α)
  | [] => [(key, change none)]
  | (head, value) :: tail =>
    if key < head then (key, change none) :: (head, value) :: tail
    else if key = head then (head, change (some value)) :: tail
    else (head, value) :: updateEntries key change tail

theorem mem_keys_updateEntries {key other : Nat} {change : Option α → α}
    {entries : List (Nat × α)} :
    other ∈ (updateEntries key change entries).map Prod.fst ↔
      other = key ∨ other ∈ entries.map Prod.fst := by
  induction entries with
  | nil => simp [updateEntries]
  | cons head tail ih =>
    obtain ⟨first, value⟩ := head
    simp only [updateEntries]
    split
    · simp
    · split
      · next same => simp [same]
      · simp only [List.map_cons, List.mem_cons, ih]
        exact or_left_comm

theorem sorted_updateEntries (key : Nat) (change : Option α → α) {entries : List (Nat × α)}
    (sorted : entries.Pairwise fun earlier later => earlier.1 < later.1) :
    (updateEntries key change entries).Pairwise fun earlier later => earlier.1 < later.1 := by
  induction entries with
  | nil => simp [updateEntries]
  | cons head tail ih =>
    obtain ⟨first, value⟩ := head
    rw [List.pairwise_cons] at sorted
    obtain ⟨below, ascending⟩ := sorted
    simp only [updateEntries]
    split
    · next smaller =>
      refine List.pairwise_cons.2 ⟨?_, List.pairwise_cons.2 ⟨below, ascending⟩⟩
      intro entry inside
      rcases List.mem_cons.1 inside with rfl | later
      · exact smaller
      · exact Nat.lt_trans smaller (below entry later)
    · split
      · exact List.pairwise_cons.2 ⟨below, ascending⟩
      · next notSmaller different =>
        refine List.pairwise_cons.2 ⟨?_, ih ascending⟩
        intro entry inside
        have isKey : entry.1 ∈ (updateEntries key change tail).map Prod.fst :=
          List.mem_map_of_mem inside
        rcases mem_keys_updateEntries.1 isKey with same | old
        · have : entry.1 = key := same
          show first < entry.1
          omega
        · obtain ⟨found, later, sameKey⟩ := List.mem_map.1 old
          exact sameKey ▸ below found later

/-- The table without entries. -/
def empty : SortedTable α :=
  ⟨[], List.Pairwise.nil⟩

instance : Inhabited (SortedTable α) :=
  ⟨empty⟩

/-- The keys in ascending order. -/
def keys (table : SortedTable α) : List Nat :=
  table.entries.map Prod.fst

/-- The values in ascending order of their keys. -/
def values (table : SortedTable α) : List α :=
  table.entries.map Prod.snd

/-- The number of keys. -/
def size (table : SortedTable α) : Nat :=
  table.entries.length

/-- The value of a key. -/
def get? (table : SortedTable α) (key : Nat) : Option α :=
  table.entries.lookup key

/-- The table with the value of one key changed. A key that is not in the table has no
    value to change, and takes its place in the order. -/
def update (table : SortedTable α) (key : Nat) (change : Option α → α) : SortedTable α :=
  ⟨updateEntries key change table.entries, sorted_updateEntries key change table.sorted⟩

/-- The table as an object whose keys are numbers in digits. -/
def toJson (encode : α → Json) (table : SortedTable α) : Json :=
  .obj (table.entries.map fun (key, value) => (toString key, encode value))

end SortedTable

/-- How often each number was observed. -/
abbrev Histogram := SortedTable Nat

namespace Histogram

/-- One more observation of a number. -/
def add (histogram : Histogram) (key : Nat) : Histogram :=
  histogram.update key fun count => count.getD 0 + 1

/-- The histogram of a list of observations. -/
def ofList (observed : List Nat) : Histogram :=
  observed.foldl add SortedTable.empty

/-- The number of observations of a number. -/
def count (histogram : Histogram) (key : Nat) : Nat :=
  (histogram.get? key).getD 0

/-- The number of all observations. -/
def total (histogram : Histogram) : Nat :=
  histogram.values.sum

theorem sum_values_updateEntries (key : Nat) (entries : List (Nat × Nat)) :
    ((SortedTable.updateEntries key (fun count => count.getD 0 + 1) entries).map
        Prod.snd).sum = (entries.map Prod.snd).sum + 1 := by
  induction entries with
  | nil => simp [SortedTable.updateEntries]
  | cons head tail ih =>
    obtain ⟨first, value⟩ := head
    simp only [SortedTable.updateEntries]
    split
    · simp; omega
    · split
      · simp; omega
      · simp only [List.map_cons, List.sum_cons, ih]; omega

/-- An observation adds one to the total. -/
theorem total_add (histogram : Histogram) (key : Nat) :
    (histogram.add key).total = histogram.total + 1 :=
  sum_values_updateEntries key histogram.entries

/-- The histogram as an object of counts. -/
def toJson (histogram : Histogram) : Json :=
  SortedTable.toJson Json.ofNat histogram

end Histogram

end AccelProfile
