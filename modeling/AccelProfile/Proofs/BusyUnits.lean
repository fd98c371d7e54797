import Mathlib.Data.List.Induction
import Mathlib.Data.Set.Operations
import Mathlib.Order.Bounds.Defs
import AccelProfile.FunctionalUnit

/-!
# The number of busy units

Of each class of units a table of changes is kept: one more unit is busy where an operation
starts, one less where it ends. Operations that start and end in one cycle meet in one entry and
may leave it at zero. What carries all that is said here is that the changes up to a cycle,
added up, are the number of operations under way in that cycle. Every recorded operation keeps
this so, and since the entries stand in the order of the cycles, the running count of a sweep over
them is such a sum at every entry. So the count is never negative, it comes back to zero, and its
peak is the largest number of operations that were ever under way together.
-/

namespace AccelProfile

/-- What one operation asks of a unit: the cycles from a start up to, and not including, an end. -/
structure Hold where
  start : Nat
  stop : Nat
  deriving DecidableEq

/-- The number of operations that are under way in a cycle. -/
def underWay (holds : List Hold) (cycle : Nat) : Nat :=
  holds.countP fun held => held.start ≤ cycle ∧ cycle < held.stop

theorem underWay_concat (holds : List Hold) (held : Hold) (cycle : Nat) :
    underWay (holds ++ [held]) cycle =
      underWay holds cycle + if held.start ≤ cycle ∧ cycle < held.stop then 1 else 0 := by
  simp [underWay, List.countP_append, List.countP_singleton]

/-- After the last end nothing is under way. -/
theorem exists_all_ended (holds : List Hold) :
    ∃ late, ∀ cycle ≥ late, underWay holds cycle = 0 := by
  induction holds with
  | nil => exact ⟨0, fun _ _ => rfl⟩
  | cons held others ih =>
    obtain ⟨late, ended⟩ := ih
    refine ⟨max late held.stop, fun cycle later => ?_⟩
    have endedOthers := ended cycle (Nat.le_trans (Nat.le_max_left _ _) later)
    have past : ¬ cycle < held.stop := by omega
    rw [underWay] at endedOthers ⊢
    rw [List.countP_cons_of_neg (by simp [past]), endedOthers]

namespace Occupancy

/-! ## Changes up to a cycle -/

/-- The changes up to a cycle, added up. -/
def changesUpTo (cycle : Nat) : List (Nat × Int) → Int
  | [] => 0
  | (key, change) :: later => (if key ≤ cycle then change else 0) + changesUpTo cycle later

/-- One more change counts from its cycle on. It makes no difference whether its cycle had a
change before. -/
theorem changesUpTo_updateEntries (cycle key : Nat) (change : Int) (entries : List (Nat × Int)) :
    changesUpTo cycle (SortedTable.updateEntries key (fun known => known.getD 0 + change) entries) =
      changesUpTo cycle entries + if key ≤ cycle then change else 0 := by
  induction entries with
  | nil => simp [SortedTable.updateEntries, changesUpTo]
  | cons head tail ih =>
    obtain ⟨first, value⟩ := head
    simp only [SortedTable.updateEntries]
    split
    · simp only [changesUpTo, Option.getD_none]
      split <;> omega
    · split
      · next same =>
        subst same
        simp only [changesUpTo, Option.getD_some]
        split <;> omega
      · simp only [changesUpTo, ih]
        omega

/-- An operation that takes time adds one to the sums of the cycles in which it is under way. -/
theorem changesUpTo_hold (occupancy : Occupancy) (held : Hold) (timed : held.start < held.stop)
    (cycle : Nat) :
    changesUpTo cycle (occupancy.hold held.start held.stop).entries =
      changesUpTo cycle occupancy.entries +
        if held.start ≤ cycle ∧ cycle < held.stop then 1 else 0 := by
  simp only [hold, shift, SortedTable.update, changesUpTo_updateEntries]
  split <;> split <;> split <;> omega

/-- Before the first entry there are no changes. -/
theorem changesUpTo_of_before {cycle : Nat} {entries : List (Nat × Int)}
    (before : ∀ entry ∈ entries, cycle < entry.1) : changesUpTo cycle entries = 0 := by
  induction entries with
  | nil => rfl
  | cons head tail ih =>
    obtain ⟨first, value⟩ := head
    have later : ¬ first ≤ cycle := Nat.not_le_of_lt (before (first, value) List.mem_cons_self)
    have beforeRest : ∀ entry ∈ tail, cycle < entry.1 :=
      fun entry inside => before entry (List.mem_cons_of_mem _ inside)
    rw [changesUpTo, if_neg later, ih beforeRest]
    rfl

/-- After the last entry there are no more changes. -/
theorem changesUpTo_of_after {cycle later : Nat} {entries : List (Nat × Int)}
    (reached : ∀ entry ∈ entries, entry.1 ≤ cycle) (ordered : cycle ≤ later) :
    changesUpTo later entries = changesUpTo cycle entries := by
  induction entries with
  | nil => rfl
  | cons head tail ih =>
    obtain ⟨first, value⟩ := head
    have atFirst : first ≤ cycle := reached (first, value) List.mem_cons_self
    rw [changesUpTo, changesUpTo, if_pos atFirst, if_pos (Nat.le_trans atFirst ordered),
      ih fun entry inside => reached entry (List.mem_cons_of_mem _ inside)]

/-! ## The sweep -/

/-- The cycles at which the number of busy units changes, each with the number of units that are
busy from there on, where some are busy in front. -/
def sweepFrom (busy : Int) : List (Nat × Int) → List (Nat × Int)
  | [] => []
  | (cycle, change) :: later => (cycle, busy + change) :: sweepFrom (busy + change) later

/-- The readings of a sweep over all changes. -/
def sweep (occupancy : Occupancy) : List (Nat × Int) :=
  sweepFrom 0 occupancy.entries

/-- The peak is the largest reading of the sweep. -/
theorem peakFrom_eq_foldl (busy peak : Int) (entries : List (Nat × Int)) :
    peakFrom busy peak (entries.map Prod.snd) =
      ((sweepFrom busy entries).map Prod.snd).foldl max peak := by
  induction entries generalizing busy peak with
  | nil => rfl
  | cons head tail ih => exact ih _ _

theorem keys_sweepFrom (busy : Int) (entries : List (Nat × Int)) :
    (sweepFrom busy entries).map Prod.fst = entries.map Prod.fst := by
  induction entries generalizing busy with
  | nil => rfl
  | cons head tail ih => exact congrArg (head.1 :: ·) (ih _)

variable {entries : List (Nat × Int)}

/-- A reading of the sweep is what was busy in front with the changes up to its cycle. -/
theorem reading_eq (sorted : entries.Pairwise fun earlier later => earlier.1 < later.1)
    (busy : Int) {cycle : Nat} {count : Int} (reading : (cycle, count) ∈ sweepFrom busy entries) :
    count = busy + changesUpTo cycle entries := by
  induction entries generalizing busy with
  | nil => cases reading
  | cons head tail ih =>
    obtain ⟨first, change⟩ := head
    obtain ⟨below, ascending⟩ := List.pairwise_cons.1 sorted
    rcases List.mem_cons.1 reading with isFirst | later
    · obtain ⟨rfl, rfl⟩ := Prod.mk.inj isFirst
      rw [changesUpTo, if_pos (Nat.le_refl _), changesUpTo_of_before below, Int.add_zero]
    · have listed : cycle ∈ (sweepFrom (busy + change) tail).map Prod.fst :=
        List.mem_map_of_mem later
      rw [keys_sweepFrom] at listed
      obtain ⟨entry, inside, rfl⟩ := List.mem_map.1 listed
      have onwards : first ≤ entry.1 := Nat.le_of_lt (below entry inside)
      rw [ih ascending _ later, changesUpTo, if_pos onwards, Int.add_assoc]

theorem le_peakFrom (busy peak : Int) (changes : List Int) : peak ≤ peakFrom busy peak changes := by
  induction changes generalizing busy peak with
  | nil => exact Int.le_refl peak
  | cons change later ih => exact Int.le_trans (Int.le_max_left _ _) (ih _ _)

/-- No cycle has more busy units than the peak. A cycle between two entries has as many as the
one at the entry in front of it. -/
theorem changesUpTo_le_peakFrom
    (sorted : entries.Pairwise fun earlier later => earlier.1 < later.1) {busy peak : Int}
    (reached : busy ≤ peak) (cycle : Nat) :
    busy + changesUpTo cycle entries ≤ peakFrom busy peak (entries.map Prod.snd) := by
  induction entries generalizing busy peak with
  | nil => simpa [changesUpTo, peakFrom] using reached
  | cons head tail ih =>
    obtain ⟨first, change⟩ := head
    obtain ⟨below, ascending⟩ := List.pairwise_cons.1 sorted
    by_cases onwards : first ≤ cycle
    · have bound := ih ascending (Int.le_max_right peak (busy + change))
      rwa [changesUpTo, if_pos onwards, ← Int.add_assoc]
    · have before : ∀ entry ∈ (first, change) :: tail, cycle < entry.1 := by
        intro entry inside
        rcases List.mem_cons.1 inside with rfl | later
        · exact Nat.lt_of_not_le onwards
        · exact Nat.lt_trans (Nat.lt_of_not_le onwards) (below entry later)
      rw [changesUpTo_of_before before, Int.add_zero]
      exact Int.le_trans reached (le_peakFrom _ _ _)

/-- The peak is the one in front or a reading of the sweep. -/
theorem peakFrom_reached (busy peak : Int) (entries : List (Nat × Int)) :
    peakFrom busy peak (entries.map Prod.snd) = peak ∨
      ∃ cycle, (cycle, peakFrom busy peak (entries.map Prod.snd)) ∈ sweepFrom busy entries := by
  induction entries generalizing busy peak with
  | nil => exact .inl rfl
  | cons head tail ih =>
    obtain ⟨first, change⟩ := head
    rcases ih (busy + change) (max peak (busy + change)) with kept | ⟨cycle, reading⟩
    · rw [List.map_cons, peakFrom, kept]
      rcases Int.le_total (busy + change) peak with lower | higher
      · exact .inl (Int.max_eq_left lower)
      · rw [Int.max_eq_right higher]
        exact .inr ⟨first, List.mem_cons_self⟩
    · exact .inr ⟨cycle, List.mem_cons_of_mem _ reading⟩

/-! ## Tables that count operations -/

/-- The changes up to each cycle add up to the number of operations under way in it. -/
def Counts (occupancy : Occupancy) (holds : List Hold) : Prop :=
  ∀ cycle, changesUpTo cycle occupancy.entries = underWay holds cycle

namespace Counts

variable {occupancy : Occupancy} {holds : List Hold}

theorem empty : Counts .empty [] := fun _ => rfl

/-- One more operation that takes time is counted by its two changes. -/
theorem concat_timed (counts : occupancy.Counts holds) {held : Hold}
    (timed : held.start < held.stop) :
    (occupancy.hold held.start held.stop).Counts (holds ++ [held]) := by
  intro cycle
  rw [changesUpTo_hold occupancy held timed, counts cycle, underWay_concat]
  split <;> rfl

/-- One more operation that takes no time is counted by nothing. -/
theorem concat_untimed (counts : occupancy.Counts holds) {held : Hold}
    (untimed : ¬ held.start < held.stop) : occupancy.Counts (holds ++ [held]) := by
  intro cycle
  have never : ¬ (held.start ≤ cycle ∧ cycle < held.stop) := by omega
  rw [counts cycle, underWay_concat, if_neg never, Nat.add_zero]

/-- Every reading of the sweep is the number of operations under way in its cycle. -/
theorem reading (counts : occupancy.Counts holds) {cycle : Nat} {count : Int}
    (reading : (cycle, count) ∈ occupancy.sweep) : count = underWay holds cycle := by
  rw [reading_eq occupancy.sorted 0 reading, Int.zero_add, counts cycle]

/-- The last reading of the sweep is zero: no change comes behind it, and in the end all
operations have ended. -/
theorem last (counts : occupancy.Counts holds) {cycle : Nat} {count : Int}
    (last : occupancy.sweep.getLast? = some (cycle, count)) : count = 0 := by
  obtain ⟨front, isLast⟩ := List.getLast?_eq_some_iff.1 last
  have keys : occupancy.entries.map Prod.fst = front.map Prod.fst ++ [cycle] := by
    rw [← keys_sweepFrom 0, ← sweep, isLast, List.map_append, List.map_singleton]
  have ascending := List.pairwise_map.2 occupancy.sorted
  rw [keys, List.pairwise_append] at ascending
  have reached : ∀ entry ∈ occupancy.entries, entry.1 ≤ cycle := by
    intro entry inside
    have listed : entry.1 ∈ occupancy.entries.map Prod.fst := List.mem_map_of_mem inside
    rw [keys] at listed
    rcases List.mem_append.1 listed with before | atLast
    · exact Nat.le_of_lt (ascending.2.2 _ before cycle List.mem_cons_self)
    · exact Nat.le_of_eq (List.mem_singleton.1 atLast)
  obtain ⟨late, ended⟩ := exists_all_ended holds
  have settled := changesUpTo_of_after reached (Nat.le_max_left cycle late)
  rw [counts, counts, ended _ (Nat.le_max_right cycle late)] at settled
  exact (counts.reading (List.mem_of_getLast? last)).trans settled.symm

/-- The peak is the largest number of operations under way in one cycle. -/
theorem isGreatest_peak (counts : occupancy.Counts holds) :
    IsGreatest (Set.range (underWay holds)) occupancy.peak := by
  constructor
  · rcases peakFrom_reached 0 0 occupancy.entries with zero | ⟨cycle, reading⟩
    · obtain ⟨late, ended⟩ := exists_all_ended holds
      refine ⟨late, (ended late (Nat.le_refl late)).trans ?_⟩
      rw [peak, SortedTable.values, zero]
      rfl
    · refine ⟨cycle, ?_⟩
      rw [peak, SortedTable.values, counts.reading reading, Int.toNat_natCast]
  · rintro _ ⟨cycle, rfl⟩
    have bound := changesUpTo_le_peakFrom occupancy.sorted (Int.le_refl 0) cycle
    rw [counts cycle, Int.zero_add] at bound
    exact Int.ofNat_le.1 (Int.le_trans bound (Int.self_le_toNat _))

end Counts

end Occupancy

namespace FuUsage

/-! ## Runs of the functional units -/

/-- One thing that is recorded of the functional units. -/
inductive Call
  /-- An operation holds a unit. -/
  | hold (fu : FuClass) (held : Hold)
  /-- A request finds all units busy. -/
  | contention (fu : FuClass)
  /-- The number of units becomes known. -/
  | instances (fu : FuClass) (count : Nat)

/-- The use after a call. -/
def receive (usage : FuUsage) : Call → FuUsage
  | .hold fu held => usage.recordBusy fu held.start held.stop
  | .contention fu => usage.recordContention fu
  | .instances fu count => usage.setInstances fu count

/-- The use after any calls. -/
def after (calls : List Call) : FuUsage :=
  calls.foldl receive .empty

/-- The operation of a class that a call records. -/
def Call.hold? (fu : FuClass) : Call → Option Hold
  | .hold second held => if second = fu then some held else none
  | .contention _ | .instances .. => none

/-- The operations of a class that were recorded, in the order of their recording. -/
def holds (fu : FuClass) (calls : List Call) : List Hold :=
  calls.filterMap (Call.hold? fu)

theorem after_concat (calls : List Call) (call : Call) :
    after (calls ++ [call]) = (after calls).receive call := by
  simp [after]

theorem holds_concat (fu : FuClass) (calls : List Call) (call : Call) :
    holds fu (calls ++ [call]) = holds fu calls ++ (call.hold? fu).toList := by
  cases held : call.hold? fu <;> simp [holds, held]

/-- A change that leaves some value of the counters of a class alone leaves that value alone for all
classes. -/
theorem get_modify_of_kept {α : Type} (value : FuCounters → α) (usage : FuUsage)
    (fu second : FuClass) (change : FuCounters → FuCounters)
    (kept : ∀ counters, value (change counters) = value counters) :
    value ((usage.modify fu change).get second) = value (usage.get second) := by
  rw [get_modify]
  split
  · next same => rw [kept, same]
  · rfl

/-- A call that records no operation of a class leaves the table of the class alone. -/
theorem occupancy_receive_of_none (usage : FuUsage) {call : Call} {fu : FuClass}
    (recorded : call.hold? fu = none) :
    ((usage.receive call).get fu).occupancy = (usage.get fu).occupancy := by
  cases call with
  | hold second held =>
    have different : fu ≠ second := by
      rintro rfl
      simp [Call.hold?] at recorded
    have counters := usage.get_modify second fu (·.hold held.start held.stop)
    rw [if_neg different] at counters
    exact congrArg FuCounters.occupancy counters
  | contention second =>
    exact get_modify_of_kept FuCounters.occupancy usage second fu
      (fun counters => { counters with contentionStalls := counters.contentionStalls + 1 })
      fun _ => rfl
  | instances second count =>
    exact get_modify_of_kept FuCounters.occupancy usage second fu ({ · with instances := count })
      fun _ => rfl

/-- A call that records an operation of a class moves the table of the class by the two changes
of the operation, if that takes time. -/
theorem occupancy_receive_of_some (usage : FuUsage) {call : Call} {fu : FuClass} {held : Hold}
    (recorded : call.hold? fu = some held) :
    ((usage.receive call).get fu).occupancy =
      if held.start < held.stop then (usage.get fu).occupancy.hold held.start held.stop
      else (usage.get fu).occupancy := by
  cases call with
  | hold second known =>
    obtain ⟨rfl, rfl⟩ : second = fu ∧ known = held := by
      simpa [Call.hold?] using recorded
    have counters := usage.get_modify second second (·.hold known.start known.stop)
    rw [if_pos rfl] at counters
    have moved : ((usage.receive (.hold second known)).get second).occupancy =
        ((usage.get second).hold known.start known.stop).occupancy :=
      congrArg FuCounters.occupancy counters
    rw [moved, FuCounters.hold]
    split <;> rfl
  | contention => cases recorded
  | instances => cases recorded

/-- The table of each class counts the operations of that class. -/
theorem counts_after (calls : List Call) (fu : FuClass) :
    ((after calls).get fu).occupancy.Counts (holds fu calls) := by
  induction calls using List.reverseRecOn with
  | nil =>
    have unused : (after []).get fu = .empty := by simp [after, get, empty]
    rw [unused]
    exact Occupancy.Counts.empty
  | append_singleton calls call ih =>
    rw [after_concat, holds_concat]
    cases recorded : call.hold? fu with
    | none =>
      rw [occupancy_receive_of_none _ recorded, Option.toList_none, List.append_nil]
      exact ih
    | some held =>
      rw [occupancy_receive_of_some _ recorded, Option.toList_some]
      split
      · next timed => exact ih.concat_timed timed
      · next untimed => exact ih.concat_untimed untimed

/-- After any calls, the peak of a class is the largest number of its operations that were under
way in one cycle, and zero if none ever was. It is the largest reading of the sweep over the
changes. Each reading is the number of operations under way in its cycle, so none is negative,
and the last one is zero. -/
theorem peak_of_each_class (calls : List Call) (fu : FuClass) :
    let counters := (after calls).get fu
    let busy := underWay (holds fu calls)
    IsGreatest (Set.range busy) counters.maxConcurrent ∧
    ((counters.occupancy.sweep.map Prod.snd).foldl max 0).toNat = counters.maxConcurrent ∧
    (∀ cycle count, (cycle, count) ∈ counters.occupancy.sweep →
      count = busy cycle ∧ 0 ≤ count) ∧
    ∀ cycle count, counters.occupancy.sweep.getLast? = some (cycle, count) → count = 0 := by
  intro counters busy
  have counts := counts_after calls fu
  refine ⟨counts.isGreatest_peak, ?_, fun cycle count reading => ?_, fun cycle count => counts.last⟩
  · exact congrArg Int.toNat (Occupancy.peakFrom_eq_foldl 0 0 counters.occupancy.entries).symm
  · have reads := counts.reading reading
    exact ⟨reads, reads ▸ Int.natCast_nonneg _⟩

-- Of the operations on this class one ends where two start, and one takes no time.
example : ((after [.hold .gep ⟨0, 3⟩, .hold .gep ⟨3, 5⟩, .hold .counter ⟨0, 9⟩,
    .hold .gep ⟨3, 5⟩, .hold .gep ⟨4, 4⟩]).get .gep).maxConcurrent = 2 := by decide

end FuUsage

end AccelProfile
