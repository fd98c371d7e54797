/-!
# Tables in first-seen order

A table from keys to values that remembers the order in which its keys came in. Updating
a key leaves it where it is; a new key goes to the end. That each key has one entry is
part of the type, so an iteration over the entries visits every key exactly once.
-/

namespace AccelProfile

/-- A table whose entries stand in the order in which their keys were first seen. -/
structure FirstSeen (κ α : Type) where
  /-- The keys with their values. -/
  entries : List (κ × α)
  /-- No key has two entries. -/
  distinct : (entries.map Prod.fst).Nodup

namespace FirstSeen

variable {κ α : Type} [DecidableEq κ]

/-- The entries with the value of one key changed, or the key added at the end. -/
def updateEntries (key : κ) (change : Option α → α) : List (κ × α) → List (κ × α)
  | [] => [(key, change none)]
  | (head, value) :: tail =>
    if head = key then (head, change (some value)) :: tail
    else (head, value) :: updateEntries key change tail

/-- Among entries, the first one with a key has its value. -/
theorem lookup_cons (key first : κ) (value : α) (tail : List (κ × α)) :
    ((first, value) :: tail).lookup key = if key = first then some value else tail.lookup key := by
  rw [List.lookup_cons]
  by_cases same : key = first
  · simp [same]
  · have differs : (key == first) = false := by simpa using same
    rw [differs, if_neg same]

theorem mem_keys_updateEntries {key other : κ} {change : Option α → α}
    {entries : List (κ × α)} :
    other ∈ (updateEntries key change entries).map Prod.fst ↔
      other = key ∨ other ∈ entries.map Prod.fst := by
  induction entries with
  | nil => simp [updateEntries]
  | cons head tail ih =>
    obtain ⟨first, value⟩ := head
    by_cases same : first = key
    · simp [updateEntries, same]
    · simp only [updateEntries, same, if_false, List.map_cons, List.mem_cons, ih]
      exact or_left_comm

theorem nodup_updateEntries (key : κ) (change : Option α → α) {entries : List (κ × α)}
    (distinct : (entries.map Prod.fst).Nodup) :
    ((updateEntries key change entries).map Prod.fst).Nodup := by
  induction entries with
  | nil => simp [updateEntries]
  | cons head tail ih =>
    obtain ⟨first, value⟩ := head
    simp only [List.map_cons, List.nodup_cons] at distinct
    by_cases same : first = key
    · simpa only [updateEntries, same, if_true, List.map_cons, List.nodup_cons] using
        same ▸ distinct
    · simp only [updateEntries, same, if_false, List.map_cons, List.nodup_cons,
        mem_keys_updateEntries, false_or]
      exact ⟨distinct.1, ih distinct.2⟩

/-- The table without entries. -/
def empty : FirstSeen κ α :=
  ⟨[], by simp⟩

instance : Inhabited (FirstSeen κ α) :=
  ⟨empty⟩

/-- The keys in first-seen order. -/
def keys (table : FirstSeen κ α) : List κ :=
  table.entries.map Prod.fst

/-- The number of keys. -/
def size (table : FirstSeen κ α) : Nat :=
  table.entries.length

/-- The value of a key. -/
def get? (table : FirstSeen κ α) (key : κ) : Option α :=
  table.entries.lookup key

/-- The table with the value of one key changed. A key that is not in the table has no
    value to change, and joins at the end. -/
def update (table : FirstSeen κ α) (key : κ) (change : Option α → α) : FirstSeen κ α :=
  ⟨updateEntries key change table.entries, nodup_updateEntries key change table.distinct⟩

theorem lookup_updateEntries (key other : κ) (change : Option α → α) (entries : List (κ × α)) :
    (updateEntries key change entries).lookup other =
      if other = key then some (change (entries.lookup key)) else entries.lookup other := by
  induction entries with
  | nil => simp only [updateEntries, lookup_cons, List.lookup_nil]
  | cons head tail ih =>
    obtain ⟨first, value⟩ := head
    simp only [updateEntries]
    split
    · next same =>
      subst same
      simp only [lookup_cons, if_true]
      split <;> rfl
    · next different =>
      have unequal : ¬ key = first := fun same => different same.symm
      simp only [lookup_cons, ih, if_neg unequal]
      by_cases atFirst : other = first
      · have apart : ¬ other = key := fun same => different (atFirst.symm.trans same)
        rw [if_pos atFirst, if_neg apart, if_pos atFirst]
      · simp only [if_neg atFirst]

theorem keys_updateEntries (key : κ) (change : Option α → α) (entries : List (κ × α)) :
    (updateEntries key change entries).map Prod.fst =
      if key ∈ entries.map Prod.fst then entries.map Prod.fst
      else entries.map Prod.fst ++ [key] := by
  induction entries with
  | nil => simp [updateEntries]
  | cons head tail ih =>
    obtain ⟨first, value⟩ := head
    by_cases same : first = key
    · simp [updateEntries, same]
    · have other : ¬ key = first := fun equal => same equal.symm
      simp only [updateEntries, same, if_false, List.map_cons, ih, List.mem_cons, other, false_or]
      split <;> simp

theorem lookup_eq_some_iff (key : κ) (value : α) {entries : List (κ × α)}
    (distinct : (entries.map Prod.fst).Nodup) :
    entries.lookup key = some value ↔ (key, value) ∈ entries := by
  induction entries with
  | nil => simp
  | cons head tail ih =>
    obtain ⟨first, found⟩ := head
    obtain ⟨fresh, distinctTail⟩ := List.nodup_cons.1 distinct
    rw [lookup_cons]
    by_cases same : key = first
    · have absent : (key, value) ∉ tail := fun member =>
        fresh (same ▸ List.mem_map.2 ⟨(key, value), member, rfl⟩)
      simp [same ▸ absent, same, eq_comm]
    · simp [same, ih distinctTail]

/-- An update changes the value of its key and of no other. -/
theorem get?_update (table : FirstSeen κ α) (key other : κ) (change : Option α → α) :
    (table.update key change).get? other =
      if other = key then some (change (table.get? key)) else table.get? other :=
  lookup_updateEntries key other change table.entries

/-- An update keeps the keys in their order; only a new one is added behind them. -/
theorem keys_update (table : FirstSeen κ α) (key : κ) (change : Option α → α) :
    (table.update key change).keys =
      if key ∈ table.keys then table.keys else table.keys ++ [key] :=
  keys_updateEntries key change table.entries

/-- The entries are exactly the keys with the values that a query gives. -/
theorem get?_eq_some_iff (table : FirstSeen κ α) (key : κ) (value : α) :
    table.get? key = some value ↔ (key, value) ∈ table.entries :=
  lookup_eq_some_iff key value table.distinct

/-- The keys are exactly those that have a value. -/
theorem mem_keys_iff (table : FirstSeen κ α) (key : κ) :
    key ∈ table.keys ↔ (table.get? key).isSome := by
  simp only [keys, Option.isSome_iff_exists, get?_eq_some_iff, List.mem_map]
  constructor
  · rintro ⟨⟨_, value⟩, member, rfl⟩
    exact ⟨value, member⟩
  · rintro ⟨value, member⟩
    exact ⟨(key, value), member, rfl⟩

end FirstSeen

end AccelProfile
