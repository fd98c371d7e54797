import Mathlib.Data.List.Pairwise
import Mathlib.Data.List.Perm.Subperm
import AccelProfile.Proofs.BusyUnits
import AccelProfile.Proofs.RowNames

/-!
# The rows of the functional units

A report sums up the units of all classes in rows of their own, and has rows for each class that
anything was heard of. The sums are counted separately while the trace is read. Every call moves
the counters of one class and the sums by the same amounts, so the sums are those of the counters;
the busy cycles stop at the largest word in each class and once more in the sum, which is no
different from stopping once, since what a class leaves out is left out of the sum as well. A class
that nothing was heard of has counted no operation, so it has no busy cycles and no changes either:
leaving its rows out loses nothing, and the sums are those of the rows that are there.
-/

namespace AccelProfile

theorem FuCounters.busyCycles_hold (counters : FuCounters) (start stop : Nat) :
    (counters.hold start stop).busyCycles =
      if start < stop then satAdd counters.busyCycles (stop - start) else counters.busyCycles := by
  rw [hold]
  split <;> rfl

namespace FuUsage

/-! ## Sums over the classes -/

/-- One of the counters, added up over all classes. -/
def sumOf (value : FuCounters → Nat) (usage : FuUsage) : Nat :=
  (FuClass.all.map fun fu => value (usage.get fu)).sum

/-- Where one class changes, the sum changes by as much. -/
theorem sumOf_modify (value : FuCounters → Nat) (usage : FuUsage) (fu : FuClass)
    (change : FuCounters → FuCounters) :
    sumOf value (usage.modify fu change) + value (usage.get fu) =
      sumOf value usage + value (change (usage.get fu)) := by
  simp only [sumOf, FuClass.all, List.map_cons, List.map_nil, List.sum_cons, List.sum_nil,
    get_modify, apply_ite value]
  cases fu <;> simp <;> omega

theorem le_sumOf (value : FuCounters → Nat) (usage : FuUsage) (fu : FuClass) :
    value (usage.get fu) ≤ sumOf value usage := by
  simp only [sumOf, FuClass.all, List.map_cons, List.map_nil, List.sum_cons, List.sum_nil]
  cases fu <;> omega

theorem sumOf_instances (usage : FuUsage) :
    sumOf FuCounters.instances usage = usage.totalInstances := by
  rw [totalInstances, toList, List.map_map]
  rfl

/-- What the sums and the counters of the classes have to do with each other. -/
structure AddsUp (usage : FuUsage) : Prop where
  /-- The busy cycles of all classes, as far as a word holds them. -/
  busy : usage.totalBusyCycles = min (sumOf FuCounters.busyCycles usage) maxWord
  contention : usage.totalContentionStalls = sumOf FuCounters.contentionStalls usage
  /-- Only operations make a class busy. -/
  idle : ∀ fu, (usage.get fu).operations = 0 →
    (usage.get fu).busyCycles = 0 ∧ (usage.get fu).occupancy = .empty

namespace AddsUp

variable {usage : FuUsage}

theorem empty : AddsUp .empty := by
  refine ⟨by decide, by decide, fun fu _ => ?_⟩
  simp [FuUsage.empty, get, FuCounters.empty]

/-- A class that has no operation after a change is idle, if it had none before and the change left
its cycles and its table alone. -/
theorem idle_modify (adds : AddsUp usage) (fu : FuClass) (change : FuCounters → FuCounters)
    (kept : ∀ counters, (change counters).operations = 0 →
      counters.operations = 0 ∧ (change counters).busyCycles = counters.busyCycles ∧
        (change counters).occupancy = counters.occupancy) (second : FuClass)
    (none : ((usage.modify fu change).get second).operations = 0) :
    ((usage.modify fu change).get second).busyCycles = 0 ∧
      ((usage.modify fu change).get second).occupancy = .empty := by
  rw [get_modify] at none ⊢
  split at none
  · next same =>
    obtain ⟨noOperation, sameCycles, sameTable⟩ := kept _ none
    rw [if_pos same, sameCycles, sameTable]
    exact adds.idle fu noOperation
  · next different =>
    rw [if_neg different]
    exact adds.idle second none

/-- An operation adds as much to its class as to the sum, as far as a word holds it. -/
theorem recordBusy (adds : AddsUp usage) (fu : FuClass) (start stop : Nat) :
    AddsUp (usage.recordBusy fu start stop) where
  busy := by
    have before := adds.busy
    have part := le_sumOf FuCounters.busyCycles usage fu
    have moved : sumOf FuCounters.busyCycles (usage.recordBusy fu start stop) +
        (usage.get fu).busyCycles = sumOf FuCounters.busyCycles usage +
          ((usage.get fu).hold start stop).busyCycles :=
      sumOf_modify FuCounters.busyCycles usage fu (·.hold start stop)
    change satAdd usage.totalBusyCycles (stop - start) = _
    rw [FuCounters.busyCycles_hold] at moved
    simp only [satAdd] at moved ⊢
    split at moved <;> omega
  contention := by
    have kept : ((usage.get fu).hold start stop).contentionStalls =
        (usage.get fu).contentionStalls := by
      rw [FuCounters.hold]
      split <;> rfl
    have moved := sumOf_modify FuCounters.contentionStalls usage fu (·.hold start stop)
    rw [kept] at moved
    exact adds.contention.trans (Nat.add_right_cancel moved).symm
  idle := by
    refine adds.idle_modify fu (·.hold start stop) fun counters none => absurd none ?_
    rw [FuCounters.hold]
    split <;> exact Nat.succ_ne_zero _

theorem recordContention (adds : AddsUp usage) (fu : FuClass) :
    AddsUp (usage.recordContention fu) where
  busy :=
    have moved := sumOf_modify FuCounters.busyCycles usage fu fun counters =>
      { counters with contentionStalls := counters.contentionStalls + 1 }
    adds.busy.trans (congrArg (min · maxWord) (Nat.add_right_cancel moved).symm)
  contention := by
    have moved := sumOf_modify FuCounters.contentionStalls usage fu fun counters =>
      { counters with contentionStalls := counters.contentionStalls + 1 }
    rw [Nat.add_left_comm, Nat.add_comm] at moved
    exact (congrArg (· + 1) adds.contention).trans (Nat.add_left_cancel moved).symm
  idle := adds.idle_modify fu
    (fun counters => { counters with contentionStalls := counters.contentionStalls + 1 })
    fun _ none => ⟨none, rfl, rfl⟩

theorem setInstances (adds : AddsUp usage) (fu : FuClass) (count : Nat) :
    AddsUp (usage.setInstances fu count) where
  busy :=
    have moved := sumOf_modify FuCounters.busyCycles usage fu ({ · with instances := count })
    adds.busy.trans (congrArg (min · maxWord) (Nat.add_right_cancel moved).symm)
  contention :=
    have moved := sumOf_modify FuCounters.contentionStalls usage fu ({ · with instances := count })
    adds.contention.trans (Nat.add_right_cancel moved).symm
  idle := adds.idle_modify fu ({ · with instances := count }) fun _ none => ⟨none, rfl, rfl⟩

/-- Any call keeps the sums right. -/
theorem receive (adds : AddsUp usage) (call : Call) : AddsUp (usage.receive call) := by
  cases call with
  | hold fu held => exact adds.recordBusy fu held.start held.stop
  | contention fu => exact adds.recordContention fu
  | instances fu count => exact adds.setInstances fu count

end AddsUp

theorem addsUp_after (calls : List Call) : AddsUp (after calls) := by
  induction calls using List.reverseRecOn with
  | nil => exact .empty
  | append_singleton calls call ih =>
    rw [after_concat]
    exact ih.receive call

/-- The counters of a class that nothing was heard of are those it started with. -/
theorem AddsUp.counters_eq_empty {usage : FuUsage} (adds : AddsUp usage) {fu : FuClass}
    (inactive : (usage.get fu).isActive = false) : usage.get fu = .empty := by
  have idle := adds.idle fu
  cases counters : usage.get fu with
  | mk instances busyCycles operations contentionStalls occupancy =>
    rw [counters] at inactive idle
    simp only [FuCounters.isActive, Bool.or_eq_false_iff, decide_eq_false_iff_not, Nat.not_lt,
      Nat.le_zero] at inactive
    obtain ⟨⟨rfl, rfl⟩, rfl⟩ := inactive
    obtain ⟨rfl, rfl⟩ := idle rfl
    rfl

end FuUsage

/-! ## Rows by name -/

namespace FuClass

/-- What the seven rows of a class tell of it. -/
def fields : List String :=
  ["instances", "max_concurrent", "busy_cycles", "operations", "contention_stalls", "utilization",
    "contention_rate"]

/-- The name of one of the rows of a class. -/
def rowName (fu : FuClass) (field : String) : String :=
  "fu_" ++ (fu.name ++ "_" ++ field)

theorem map_rowName_fields (fu : FuClass) : fields.map fu.rowName = fu.rowNames :=
  rfl

/-- A name belongs to the rows of one class only. -/
theorem eq_of_mem_rowNames {fu second : FuClass} {name : String} (own : name ∈ fu.rowNames)
    (other : name ∈ second.rowNames) : second = fu := by
  have member (fu : FuClass) : fu ∈ all := by cases fu <;> decide
  have classes : (all.flatMap rowNames).Nodup := by
    have trailing := (List.nodup_append.1 Summary.nodup_fixedNames).2.1
    rw [Summary.trailingNames, List.append_assoc, List.append_assoc] at trailing
    exact (List.nodup_append.1 (List.nodup_append.1 trailing).2.1).1
  by_contra different
  have symmetric : Std.Symm (Function.onFun List.Disjoint rowNames) :=
    ⟨fun _ _ => List.disjoint_symm⟩
  have disjoint := (List.nodup_flatMap.1 classes).2.forall (member second) (member fu) different
  exact disjoint other own

end FuClass

namespace Summary

/-- The count in the row of a name, if the report has that row and there is a count in it. -/
def count? (summary : Summary) (name : String) : Option Nat :=
  match (summary.rows.find? fun row => row.name = name).map Row.value with
  | some (.int count) => some count
  | _ => none

variable (summary : Summary)

/-- A row of a report is the one that is found by its name. -/
theorem find?_name {row : Row} (member : row ∈ summary.rows) :
    (summary.rows.find? fun other => other.name = row.name) = some row := by
  cases found : summary.rows.find? fun other => other.name = row.name with
  | none => exact absurd (List.find?_eq_none.1 found row member) (by simp)
  | some other =>
    have same : other.name = row.name := by simpa using List.find?_some found
    rw [List.inj_on_of_nodup_map summary.nodup_names_rows (List.mem_of_find?_eq_some found)
      member same]

theorem count?_of_mem {row : Row} (member : row ∈ summary.rows) {count : Nat}
    (isCount : row.value = .int count) : summary.count? row.name = some count := by
  rw [count?, summary.find?_name member, Option.map_some, isCount]

theorem units_sublist :
    (summary.units.rows summary.performance.totalCycles).Sublist summary.rows := by
  rw [rows_eq_append, trailingRows, List.append_assoc]
  exact ((List.sublist_append_left _ _).trans (List.sublist_append_right _ _)).trans
    (List.sublist_append_right _ _)

/-- The rows of a class that something was heard of are in the report. -/
theorem class_sublist {fu : FuClass} (active : (summary.units.get fu).isActive = true) :
    ((summary.units.get fu).rows fu summary.performance.totalCycles).Sublist summary.rows := by
  refine List.Sublist.trans ?_ summary.units_sublist
  rw [FuUsage.rows, List.flatMap_def]
  refine (List.sublist_flatten_of_mem ?_).trans (List.sublist_append_right _ _)
  have listed : (fu, summary.units.get fu) ∈ summary.units.toList :=
    List.mem_map_of_mem (f := fun fu => (fu, summary.units.get fu)) (by cases fu <;> decide)
  exact List.mem_map.2 ⟨_, List.mem_filter.2 ⟨listed, active⟩, rfl⟩

/-- A row with the name of a class is one of the rows of that class, of which something was
heard. -/
theorem mem_class_of_name {row : Row} (member : row ∈ summary.rows) {fu : FuClass}
    (named : row.name ∈ fu.rowNames) :
    (summary.units.get fu).isActive = true ∧
      row ∈ (summary.units.get fu).rows fu summary.performance.totalCycles := by
  obtain ⟨-, trailing, notLeading⟩ := List.nodup_append.1 nodup_fixedNames
  obtain ⟨units, -, notCycles⟩ := List.nodup_append.1 trailing
  obtain ⟨unitNames, -, notOther⟩ := List.nodup_append.1 units
  have ofClass : row.name ∈ FuClass.all.flatMap FuClass.rowNames :=
    List.mem_flatMap.2 ⟨fu, by cases fu <;> decide, named⟩
  have ofUnits := List.mem_append_right FuUsage.sumNames ofClass
  have known : row.name ∈ trailingNames := List.mem_append_left _ (List.mem_append_left _ ofUnits)
  rw [rows_eq_append, trailingRows] at member
  simp only [List.mem_append] at member
  rcases member with leading | opcode | (unit | other) | cycles
  · have leading : row.name ∈ leadingNames :=
      summary.names_leadingRows ▸ List.mem_map_of_mem leading
    exact absurd rfl (notLeading _ leading _ known)
  · have opcode : row.name ∈ summary.dataflow.opcodeRows.map Row.name := List.mem_map_of_mem opcode
    rw [Dataflow.names_opcodeRows] at opcode
    obtain ⟨number, -, same⟩ := List.mem_map.1 opcode
    exact absurd same.symm (ne_of_mem_fixedNames (List.mem_append_right _ known) _)
  · rw [FuUsage.rows, List.mem_append] at unit
    rcases unit with sum | ofOneClass
    · have sum : row.name ∈ FuUsage.sumNames := List.mem_map_of_mem (f := Row.name) sum
      exact absurd rfl ((List.nodup_append.1 unitNames).2.2 _ sum _ ofClass)
    · obtain ⟨entry, listed, own⟩ := List.mem_flatMap.1 ofOneClass
      obtain ⟨listed, active⟩ := List.mem_filter.1 listed
      obtain ⟨second, -, rfl⟩ := List.mem_map.1 listed
      have ofSecond : row.name ∈ second.rowNames :=
        FuCounters.names_rows _ second _ ▸ List.mem_map_of_mem own
      obtain rfl := FuClass.eq_of_mem_rowNames named ofSecond
      exact ⟨active, own⟩
  · have names : (summary.power.rows summary.performance.runtime ++ summary.area.rows ++
        summary.stalls.rows).map Row.name =
          (Power.empty.rows 0 ++ Area.empty.rows ++ StallBreakdown.empty.rows).map Row.name := by
      simp only [Power.rows, Area.rows, Row.plain, List.map_append, List.map_cons, List.map_nil]
      rfl
    have other : row.name ∈ (summary.power.rows summary.performance.runtime ++
        summary.area.rows ++ summary.stalls.rows).map Row.name :=
      List.mem_map_of_mem (by simpa only [List.mem_append] using other)
    rw [names] at other
    exact absurd rfl (notOther _ ofUnits _ other)
  · cases sampled : summary.cycles with
    | none => simp [sampled] at cycles
    | some window =>
      rw [sampled] at cycles
      have cycles : row.name ∈ window.rows.map Row.name := List.mem_map_of_mem cycles
      exact absurd rfl (notCycles _ (List.mem_append_left _ ofUnits) _ cycles)

/-- The count in a row of a class is found by its name exactly if anything was heard of the
class. -/
theorem count?_class {fu : FuClass} {row : Row} {count : Nat}
    (own : row ∈ (summary.units.get fu).rows fu summary.performance.totalCycles)
    (isCount : row.value = .int count) :
    summary.count? row.name = if (summary.units.get fu).isActive then some count else none := by
  split
  · next active => exact summary.count?_of_mem ((summary.class_sublist active).subset own) isCount
  · next inactive =>
    have named : row.name ∈ fu.rowNames := FuCounters.names_rows _ fu _ ▸ List.mem_map_of_mem own
    have missing : (summary.rows.find? fun other => other.name = row.name) = none := by
      refine List.find?_eq_none.2 fun other member same => inactive ?_
      have same : other.name = row.name := by simpa using same
      exact (summary.mem_class_of_name member (same ▸ named)).1
    rw [count?, missing, Option.map_none]

/-- The rows with the names of a class are its seven rows, or there are none. -/
theorem filter_class (fu : FuClass) :
    summary.rows.filter (fun row => row.name ∈ fu.rowNames) =
      if (summary.units.get fu).isActive then
        (summary.units.get fu).rows fu summary.performance.totalCycles
      else [] := by
  split
  · next active =>
    have own := (summary.class_sublist active).filter fun row => decide (row.name ∈ fu.rowNames)
    rw [List.filter_eq_self.2 fun row member => decide_eq_true
      (FuCounters.names_rows _ fu _ ▸ List.mem_map_of_mem member)] at own
    refine (own.eq_of_length_le ?_).symm
    have names : ((summary.rows.filter fun row => row.name ∈ fu.rowNames).map Row.name).Nodup :=
      (List.filter_sublist.map Row.name).nodup summary.nodup_names_rows
    have among : ((summary.rows.filter fun row => row.name ∈ fu.rowNames).map Row.name) ⊆
        fu.rowNames := by
      intro name listed
      obtain ⟨row, member, rfl⟩ := List.mem_map.1 listed
      exact of_decide_eq_true (List.mem_filter.1 member).2
    have few := (List.subperm_of_subset names among).length_le
    rwa [List.length_map] at few
  · next inactive =>
    refine List.filter_eq_nil_iff.2 fun row member named => inactive ?_
    exact (summary.mem_class_of_name member (of_decide_eq_true named)).1

/-- A counter with a row in each class: the sum of the rows that the report has is the sum of the
counter over all classes, if it is zero in the classes without rows. -/
theorem sum_counts {value : FuCounters → Nat} {field : String}
    (told : ∀ counters fu totalCycles, ∃ row ∈ FuCounters.rows counters fu totalCycles,
      row.name = fu.rowName field ∧ row.value = .int (value counters))
    (nothing : ∀ fu, (summary.units.get fu).isActive = false → value (summary.units.get fu) = 0) :
    (FuClass.all.filterMap fun fu => summary.count? (fu.rowName field)).sum =
      FuUsage.sumOf value summary.units := by
  have found (fu : FuClass) : summary.count? (fu.rowName field) =
      if (summary.units.get fu).isActive then some (value (summary.units.get fu)) else none := by
    obtain ⟨row, own, named, isCount⟩ :=
      told (summary.units.get fu) fu summary.performance.totalCycles
    rw [← named, summary.count?_class own isCount]
  rw [FuUsage.sumOf]
  induction FuClass.all with
  | nil => rfl
  | cons fu others ih =>
    rw [List.filterMap_cons, found, List.map_cons, List.sum_cons, ← ih]
    cases active : (summary.units.get fu).isActive with
    | false => simp [nothing fu active]
    | true => simp

/-- The sums in a report are those of the rows of the classes. A class has its seven rows, one for
each field and in their order, if anything was heard of it. Otherwise it has none and its counters
are as they were at the start, with an empty table. -/
theorem unit_rows_add_up (calls : List FuUsage.Call) :
    let usage := FuUsage.after calls
    let report := { summary with units := usage }
    let sumOfRows (field : String) :=
      (FuClass.all.filterMap fun fu => report.count? (fu.rowName field)).sum
    report.count? "fu_total_busy_cycles" = some (min (sumOfRows "busy_cycles") maxWord) ∧
    report.count? "fu_total_contention_stalls" = some (sumOfRows "contention_stalls") ∧
    report.count? "fu_total_instances" = some (sumOfRows "instances") ∧
    ∀ fu,
      let counters := usage.get fu
      let rows := report.rows.filter fun row => row.name ∈ FuClass.fields.map fu.rowName
      if 0 < counters.instances ∨ 0 < counters.operations ∨ 0 < counters.contentionStalls then
        rows.map Row.name = FuClass.fields.map fu.rowName ∧
          rows = counters.rows fu report.performance.totalCycles
      else rows = [] ∧ counters = .empty := by
  intro usage report sumOfRows
  have adds : FuUsage.AddsUp usage := FuUsage.addsUp_after calls
  have unused (fu : FuClass) (inactive : (usage.get fu).isActive = false) :
      usage.get fu = .empty := adds.counters_eq_empty inactive
  have busy : sumOfRows "busy_cycles" = FuUsage.sumOf FuCounters.busyCycles usage :=
    report.sum_counts (fun _ _ _ => ⟨_, List.mem_of_getElem? (i := 2) rfl, rfl, rfl⟩)
      fun fu inactive => congrArg FuCounters.busyCycles (unused fu inactive)
  have contention : sumOfRows "contention_stalls" =
      FuUsage.sumOf FuCounters.contentionStalls usage :=
    report.sum_counts (fun _ _ _ => ⟨_, List.mem_of_getElem? (i := 4) rfl, rfl, rfl⟩)
      fun fu inactive => congrArg FuCounters.contentionStalls (unused fu inactive)
  have instances : sumOfRows "instances" = FuUsage.sumOf FuCounters.instances usage :=
    report.sum_counts (fun _ _ _ => ⟨_, List.mem_of_getElem? (i := 0) rfl, rfl, rfl⟩)
      fun fu inactive => congrArg FuCounters.instances (unused fu inactive)
  have sum {row : Row} (place : Nat)
      (isRow : (report.units.rows report.performance.totalCycles)[place]? = some row) :
      row ∈ report.rows := report.units_sublist.subset (List.mem_of_getElem? isRow)
  refine ⟨?_, ?_, ?_, fun fu => ?_⟩
  · rw [busy, ← adds.busy]
    exact report.count?_of_mem (sum 0 rfl) rfl
  · rw [contention, ← adds.contention]
    exact report.count?_of_mem (sum 1 rfl) rfl
  · rw [instances, FuUsage.sumOf_instances]
    exact report.count?_of_mem (sum 2 rfl) rfl
  · intro counters rows
    have filtered : rows = if counters.isActive then
        counters.rows fu report.performance.totalCycles else [] := by
      simp only [rows, FuClass.map_rowName_fields]
      exact report.filter_class fu
    split
    · next heard =>
      have active : counters.isActive = true := by simpa [FuCounters.isActive, or_assoc] using heard
      rw [filtered, if_pos active]
      exact ⟨(FuCounters.names_rows _ fu _).trans fu.map_rowName_fields.symm, rfl⟩
    · next unheard =>
      have inactive : counters.isActive = false := by
        simpa [FuCounters.isActive, or_assoc, and_assoc] using unheard
      rw [filtered, inactive]
      exact ⟨rfl, unused fu inactive⟩

end Summary

end AccelProfile
