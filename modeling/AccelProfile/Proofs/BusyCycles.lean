import Mathlib.Algebra.BigOperators.Group.Finset.Piecewise
import Mathlib.Algebra.Order.BigOperators.Group.Finset
import Mathlib.Order.Interval.Finset.Nat
import AccelProfile.Proofs.DoubleOrder
import AccelProfile.Proofs.SaturatedSums

/-!
# Busy cycles counted twice

The cycles in which the units of a class were held are kept in two ways that know nothing of each
other: as one sum, to which each operation adds its length, and as the table of changes. Counting
the pairs of an operation and a cycle in which it is under way joins them. By operations the pairs
are the lengths added up. By cycles they are what a sweep over the table finds: between two entries
the number of busy units stays the same, so each reading counts as often as there are cycles up to
the next one. That sum over the readings is taken by parts here, where it needs no more than what
the changes add up to, alone and times their cycles, and each operation moves both in a simple way.

A class is therefore never busy for longer than a range of cycles around all its operations times
the most units that were busy at once, and if there were as many units its utilization is at most
one.
-/

namespace AccelProfile

/-- All operations that take time lie in the cycles from a first one up to, and not including, a
last one. -/
def RunWithin (first last : Nat) (holds : List Hold) : Prop :=
  ∀ held ∈ holds, held.start < held.stop → first ≤ held.start ∧ held.stop ≤ last

instance (first last : Nat) (holds : List Hold) : Decidable (RunWithin first last holds) :=
  inferInstanceAs (Decidable (∀ held ∈ holds, _ → _))

section Counting

variable {first last : Nat} {holds : List Hold}

theorem underWay_cons (held : Hold) (others : List Hold) (cycle : Nat) :
    underWay (held :: others) cycle =
      underWay others cycle + if held.start ≤ cycle ∧ cycle < held.stop then 1 else 0 := by
  simp [underWay, List.countP_cons]

/-- An operation is under way in as many cycles as it takes. -/
theorem sum_underWay_single {held : Hold}
    (within : held.start < held.stop → first ≤ held.start ∧ held.stop ≤ last) :
    (∑ cycle ∈ Finset.Ico first last, if held.start ≤ cycle ∧ cycle < held.stop then 1 else 0) =
      held.stop - held.start := by
  have cycles : (Finset.Ico first last).filter (fun cycle =>
      held.start ≤ cycle ∧ cycle < held.stop) = Finset.Ico held.start held.stop := by
    ext cycle
    simp only [Finset.mem_filter, Finset.mem_Ico]
    omega
  rw [← Finset.card_filter, cycles, Nat.card_Ico]

/-- The operations under way in all cycles of a range around them are their lengths. -/
theorem sum_underWay (within : RunWithin first last holds) :
    ∑ cycle ∈ Finset.Ico first last, underWay holds cycle =
      (holds.filterMap Hold.cycles?).sum := by
  rw [← sum_cycles]
  induction holds with
  | nil => exact Finset.sum_const_zero
  | cons held others ih =>
    obtain ⟨own, withinOthers⟩ := List.forall_mem_cons.1 within
    simp only [underWay_cons, Finset.sum_add_distrib]
    rw [ih withinOthers, sum_underWay_single own, List.map_cons, List.sum_cons, Nat.add_comm]

/-- Where so many operations at most are under way in each cycle, the lengths are at most that
many times the cycles of the range. -/
theorem sum_cycles_le (within : RunWithin first last holds) {most : Nat}
    (bound : ∀ cycle, underWay holds cycle ≤ most) :
    (holds.filterMap Hold.cycles?).sum ≤ (last - first) * most := by
  rw [← sum_underWay within, ← Nat.card_Ico first last, ← smul_eq_mul]
  exact Finset.sum_le_card_nsmul _ _ _ fun cycle _ => bound cycle

end Counting

namespace Occupancy

/-! ## The sum over the readings -/

/-- The readings of a sweep, each as often as there are cycles from its own up to the next one. -/
def unitCycles : List (Nat × Int) → Int
  | (cycle, busy) :: (next, later) :: readings =>
    busy * (next - cycle) + unitCycles ((next, later) :: readings)
  | _ => 0

/-- The changes, each times a weight of its cycle. -/
def weigh (weight : Nat → Int) : List (Nat × Int) → Int
  | [] => 0
  | (cycle, change) :: later => change * weight cycle + weigh weight later

/-- If in the end no unit is busy, the sum over the readings is that of the changes times their
cycles, with the other sign. Nothing is asked of the order of the cycles. -/
theorem unitCycles_sweepFrom (busy : Int) (cycle : Nat) (change : Int) (later : List (Nat × Int))
    (ends : busy + weigh (fun _ => 1) ((cycle, change) :: later) = 0) :
    unitCycles (sweepFrom busy ((cycle, change) :: later)) =
      -(busy * cycle) - weigh (fun key => key) ((cycle, change) :: later) := by
  induction later generalizing busy cycle change with
  | nil =>
    have settled : busy = -change := by
      simp only [weigh] at ends
      omega
    simp only [sweepFrom, unitCycles, weigh, settled]
    ring
  | cons next later ih =>
    obtain ⟨nextCycle, nextChange⟩ := next
    have onwards := ih (busy + change) nextCycle nextChange (by
      simp only [weigh] at ends ⊢
      omega)
    simp only [sweepFrom, unitCycles, weigh] at onwards ⊢
    rw [onwards]
    ring

variable (weight : Nat → Int)

/-- One more change counts with the weight of its cycle. -/
theorem weigh_updateEntries (cycle : Nat) (change : Int) (entries : List (Nat × Int)) :
    weigh weight (SortedTable.updateEntries cycle (fun known => known.getD 0 + change) entries) =
      weigh weight entries + change * weight cycle := by
  induction entries with
  | nil => simp [SortedTable.updateEntries, weigh]
  | cons head tail ih =>
    obtain ⟨first, value⟩ := head
    simp only [SortedTable.updateEntries]
    split
    · simp only [weigh, Option.getD_none]
      ring
    · split
      · next same =>
        simp only [weigh, Option.getD_some, same]
        ring
      · simp only [weigh, ih]
        ring

/-- The table after an operation, which leaves it alone if it takes no time. -/
def receive (occupancy : Occupancy) (held : Hold) : Occupancy :=
  if held.start < held.stop then occupancy.hold held.start held.stop else occupancy

/-- The table of some operations. -/
def ofHolds (holds : List Hold) : Occupancy :=
  holds.foldl receive .empty

theorem weigh_foldl_receive (occupancy : Occupancy) (holds : List Hold) :
    weigh weight (holds.foldl receive occupancy).entries = weigh weight occupancy.entries +
      ((holds.filter fun held => held.start < held.stop).map fun held =>
        weight held.start - weight held.stop).sum := by
  induction holds generalizing occupancy with
  | nil => simp
  | cons held others ih =>
    rw [List.foldl_cons, ih, receive]
    by_cases timed : held.start < held.stop
    · have moved : weigh weight (occupancy.hold held.start held.stop).entries =
          weigh weight occupancy.entries + (weight held.start - weight held.stop) := by
        simp only [hold, shift, SortedTable.update, weigh_updateEntries]
        ring
      rw [if_pos timed, moved, List.filter_cons_of_pos (by simpa using timed), List.map_cons,
        List.sum_cons, Int.add_assoc]
    · rw [if_neg timed, List.filter_cons_of_neg (by simpa using timed)]

/-- Each operation adds the difference of the weights of its ends. -/
theorem weigh_ofHolds (holds : List Hold) : weigh weight (ofHolds holds).entries =
    ((holds.filter fun held => held.start < held.stop).map fun held =>
      weight held.start - weight held.stop).sum := by
  rw [ofHolds, weigh_foldl_receive]
  exact Int.zero_add _

theorem weigh_one_ofHolds (holds : List Hold) : weigh (fun _ => 1) (ofHolds holds).entries = 0 := by
  simp [weigh_ofHolds]

theorem weigh_cycle_ofHolds (holds : List Hold) :
    weigh (fun cycle => cycle) (ofHolds holds).entries =
      -((holds.filterMap Hold.cycles?).sum : Int) := by
  rw [weigh_ofHolds]
  induction holds with
  | nil => rfl
  | cons held others ih =>
    by_cases timed : held.start < held.stop
    · have took : held.cycles? = some (held.stop - held.start) := if_pos timed
      rw [List.filter_cons_of_pos (by simpa using timed), List.map_cons, List.sum_cons, ih,
        List.filterMap_cons_some took, List.sum_cons]
      omega
    · have took : held.cycles? = none := if_neg timed
      rw [List.filter_cons_of_neg (by simpa using timed), ih, List.filterMap_cons_none took]

/-- A sweep over the table of some operations finds their lengths. -/
theorem unitCycles_sweep_ofHolds (holds : List Hold) :
    unitCycles (ofHolds holds).sweep = (holds.filterMap Hold.cycles?).sum := by
  have settled := weigh_one_ofHolds holds
  have lengths := weigh_cycle_ofHolds holds
  rw [sweep]
  cases entries : (ofHolds holds).entries with
  | nil =>
    rw [entries, weigh] at lengths
    rw [sweepFrom, unitCycles]
    · omega
    · rintro _ _ _ _ _ ⟨⟩
  | cons head later =>
    rw [entries] at settled lengths
    rw [unitCycles_sweepFrom 0 head.1 head.2 later (by rwa [Int.zero_add]), lengths]
    ring

end Occupancy

namespace FuUsage

/-- The table of each class is that of its operations. -/
theorem occupancy_after (calls : List Call) (fu : FuClass) :
    ((after calls).get fu).occupancy = .ofHolds (holds fu calls) := by
  have unused : (empty.get fu).occupancy = .empty := by simp [get, empty, FuCounters.empty]
  rw [after, Occupancy.ofHolds, ← unused]
  apply foldl_part fun usage : FuUsage => (usage.get fu).occupancy
  intro usage call
  cases recorded : call.hold? fu with
  | none => exact occupancy_receive_of_none usage recorded
  | some held => exact occupancy_receive_of_some usage recorded

/-- After any calls, the sweep over the table of a class finds the lengths of its operations, which
its busy cycles add up as far as a word holds them. In any range of cycles around all operations
that take time there are no more busy cycles than its cycles times the most units that were busy at
once. If all of these operations are part of a run and never more units were busy at once than the
class has, its busy cycles are at most those of all units in the run, and its utilization is at most
one. -/
theorem busy_cycles_within_capacity (calls : List Call) (fu : FuClass) :
    let counters := (after calls).get fu
    let lengths := (holds fu calls).filterMap Hold.cycles?
    Occupancy.unitCycles counters.occupancy.sweep = lengths.sum ∧
    counters.busyCycles = min lengths.sum maxWord ∧
    (∀ first last, RunWithin first last (holds fu calls) →
      counters.busyCycles ≤ (last - first) * counters.maxConcurrent) ∧
    ∀ totalCycles, RunWithin 0 totalCycles (holds fu calls) →
      (∀ cycle, underWay (holds fu calls) cycle ≤ counters.instances) →
      counters.busyCycles ≤ totalCycles * counters.instances ∧
        counters.utilization totalCycles ≤ 1 := by
  intro counters lengths
  have isSum : counters.busyCycles = min lengths.sum maxWord := busyCycles_after calls fu
  have atMostSum : counters.busyCycles ≤ lengths.sum := isSum ▸ Nat.min_le_left _ _
  refine ⟨?_, isSum, ?_, ?_⟩
  · rw [occupancy_after]
    exact Occupancy.unitCycles_sweep_ofHolds _
  · intro first last within
    have greatest := (counts_after calls fu).isGreatest_peak
    exact Nat.le_trans atMostSum
      (sum_cycles_le within fun cycle => greatest.2 (Set.mem_range_self cycle))
  · intro totalCycles within enough
    have atMost : counters.busyCycles ≤ totalCycles * counters.instances :=
      Nat.le_trans atMostSum (sum_cycles_le within enough)
    refine ⟨atMost, ratio_le_one ?_ (Nat.min_le_right _ _)⟩
    exact Nat.le_min.2 ⟨atMost, isSum ▸ Nat.min_le_right _ _⟩

/-- Two units that are both held for a while, in a run of ten cycles. The last operation takes no
time and need not be part of the run. -/
theorem two_units_within_capacity :
    let calls : List Call := [.instances .gep 2, .hold .gep ⟨2, 5⟩, .hold .gep ⟨2, 3⟩,
      .hold .gep ⟨5, 9⟩, .hold .gep ⟨12, 12⟩]
    let counters := (after calls).get .gep
    RunWithin 0 10 (holds .gep calls) ∧
      (∀ cycle, underWay (holds .gep calls) cycle ≤ counters.instances) ∧
      counters.busyCycles ≤ 10 * counters.instances ∧ counters.utilization 10 ≤ 1 := by
  intro calls counters
  have within : RunWithin 0 10 (holds .gep calls) := by decide
  have enough : ∀ cycle, underWay (holds .gep calls) cycle ≤ counters.instances := fun cycle =>
    Nat.le_trans ((counts_after calls .gep).isGreatest_peak.2 ⟨cycle, rfl⟩) (by decide)
  obtain ⟨-, -, -, capacity⟩ := busy_cycles_within_capacity calls .gep
  exact ⟨within, enough, capacity 10 within enough⟩

-- Two operations share their start, one ends where another starts, and one takes no time.
example :
    let counters := (after [.hold .gep ⟨2, 5⟩, .hold .gep ⟨2, 3⟩, .hold .gep ⟨5, 9⟩,
      .hold .gep ⟨7, 7⟩]).get .gep
    counters.occupancy.sweep = [(2, 2), (3, 1), (5, 1), (9, 0)] ∧
      Occupancy.unitCycles counters.occupancy.sweep = 8 ∧ counters.busyCycles = 8 := by
  decide

end FuUsage

end AccelProfile
