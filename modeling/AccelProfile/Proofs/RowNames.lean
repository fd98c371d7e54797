import Mathlib.Data.List.Flatten
import Mathlib.Data.List.Nodup
import AccelProfile.Proofs.TextBytes
import AccelProfile.Summary.Rows

/-!
# Names of rows

The names of the rows of a report are pairwise distinct. All but those of the opcodes come
from one fixed list: a report leaves out the classes of functional units that nothing was
heard of, and the cycles if none were sampled, and changes no name. The names of the
opcodes start with a prefix that no fixed name starts with, and go on with the digits of
distinct numbers.

Two fixed names can only be equal if they are equally long, so names of the same length are
all that has to be compared.
-/

namespace AccelProfile

/-- The names of the seven rows of a class of functional units. -/
def FuClass.rowNames (fu : FuClass) : List String :=
  (FuCounters.empty.rows fu 0).map Row.name

/-- The names of the rows of all functional units together. -/
def FuUsage.sumNames : List String :=
  ["total_busy_cycles", "total_contention_stalls", "total_instances", "overall_utilization",
    "most_contended"].map ("fu_" ++ ·)

/-- The prefix of the names of the opcodes. -/
def Dataflow.opcodePrefix : String := "critical_path_opcode_"

namespace Summary

/-- The rows of a summary section by section, each under the key of its section. The name
of the accelerator stands in front of them. -/
def sections (summary : Summary) : List (String × List Row) :=
  let totalCycles := summary.performance.totalCycles
  [("performance", summary.performance.rows), ("memory_access", summary.memory.rows),
    ("bandwidth", summary.memory.bandwidthRows totalCycles),
    ("dataflow", summary.dataflow.rows),
    ("critical_path_by_opcode", summary.dataflow.opcodeRows),
    ("fu_utilization", summary.units.rows totalCycles),
    ("power", summary.power.rows summary.performance.runtime), ("area", summary.area.rows),
    ("stall_breakdown", summary.stalls.rows),
    ("cycle_summary", summary.cycles.elim [] CycleSummary.rows)]

/-- The row in front of the sections. -/
def titleRow (summary : Summary) : Row :=
  .plain .identity "accelerator_name" (.text summary.acceleratorName)

theorem rows_eq_sections (summary : Summary) :
    summary.rows = summary.titleRow :: summary.sections.flatMap Prod.snd := by
  simp only [rows, sections, titleRow, List.flatMap_cons, List.flatMap_nil, List.append_nil,
    List.append_assoc, List.cons_append, List.nil_append]

/-- The names in front of those of the opcodes. -/
def leadingNames : List String :=
  (empty.titleRow :: (Performance.empty.rows ++ MemoryTraffic.empty.rows ++
    MemoryTraffic.empty.bandwidthRows 0 ++ Dataflow.empty.rows)).map Row.name

/-- All names that can stand behind those of the opcodes. -/
def trailingNames : List String :=
  FuUsage.sumNames ++ FuClass.all.flatMap FuClass.rowNames ++
    (Power.empty.rows 0 ++ Area.empty.rows ++ StallBreakdown.empty.rows).map Row.name ++
      (CycleSummary.rows default).map Row.name

/-- All names but those of the opcodes. -/
def fixedNames : List String :=
  leadingNames ++ trailingNames

theorem utf8ByteSize_lt_of_mem : ∀ name ∈ fixedNames, name.utf8ByteSize < 40 := by
  decide +kernel

theorem nodup_of_utf8ByteSize :
    ∀ size < 40, (fixedNames.filter fun name => name.utf8ByteSize = size).Nodup := by
  decide +kernel

/-- The fixed names are pairwise distinct. -/
theorem nodup_fixedNames : fixedNames.Nodup := by
  rw [List.nodup_iff_count_le_one]
  intro name
  by_cases known : name ∈ fixedNames
  · have distinct := nodup_of_utf8ByteSize _ (utf8ByteSize_lt_of_mem name known)
    have once := List.nodup_iff_count_le_one.1 distinct name
    rwa [List.count_filter (by simp)] at once
  · rw [List.count_eq_zero_of_not_mem known]
    exact Nat.zero_le 1

/-- The characters that a reader of tables may take for more than a part of a name. -/
def marks : List Char :=
  [',', '"', '\n', '\r']

theorem bytes_of_mem_fixedNames :
    ∀ name ∈ fixedNames,
      ¬ FileTree.bytesOf Dataflow.opcodePrefix <+: FileTree.bytesOf name ∧
        marks.all fun mark => UInt8.ofNat mark.toNat ∉ FileTree.bytesOf name := by
  decide +kernel

/-- No fixed name starts like the name of an opcode. -/
theorem ne_of_mem_fixedNames {name : String} (known : name ∈ fixedNames) (digits : String) :
    name ≠ Dataflow.opcodePrefix ++ digits := by
  rintro rfl
  apply (bytes_of_mem_fixedNames _ known).1
  rw [FileTree.bytesOf_append]
  exact List.prefix_append _ _

/-- A fixed name holds no mark of a table. -/
theorem mark_notMem_of_mem_fixedNames {name : String} (known : name ∈ fixedNames) {mark : Char}
    (isMark : mark ∈ marks) : mark ∉ name.toList := by
  have noByte := List.all_eq_true.1 (bytes_of_mem_fixedNames name known).2 mark isMark
  have allAscii : (marks.all fun mark => mark.toNat < 128) = true := by decide
  have ascii : mark.toNat < 128 := of_decide_eq_true (List.all_eq_true.1 allAscii mark isMark)
  intro inside
  exact of_decide_eq_true noByte ((FileTree.mem_bytesOf_iff ascii name).2 inside)

end Summary

namespace Dataflow

theorem names_opcodeRows (dataflow : Dataflow) :
    dataflow.opcodeRows.map Row.name =
      dataflow.pathByOpcode.keys.map fun opcode => opcodePrefix ++ toString opcode := by
  simp only [opcodeRows, SortedTable.keys, List.map_map]
  rfl

/-- The names of the opcodes are pairwise distinct. -/
theorem nodup_names_opcodeRows (dataflow : Dataflow) :
    (dataflow.opcodeRows.map Row.name).Nodup := by
  rw [names_opcodeRows]
  have ascends : dataflow.pathByOpcode.keys.Pairwise (· < ·) :=
    List.pairwise_map.2 dataflow.pathByOpcode.sorted
  apply List.Nodup.map _ (ascends.imp Nat.ne_of_lt)
  intro left right same
  have sameDigits : toString left = toString right := (String.append_right_inj _).1 same
  have sameNumber := congrArg (fun digits => Nat.ofDigitChars 10 digits.toList 0) sameDigits
  simpa [Nat.toString_eq_ofList_toDigits] using sameNumber

end Dataflow

/-- The names of a class do not depend on its counters. -/
theorem FuCounters.names_rows (counters : FuCounters) (fu : FuClass) (totalCycles : Nat) :
    (counters.rows fu totalCycles).map Row.name = fu.rowNames :=
  rfl

/-- The names of the rows of functional units are among the fixed ones, in their order. -/
theorem FuUsage.names_rows_sublist (usage : FuUsage) (totalCycles : Nat) :
    ((usage.rows totalCycles).map Row.name).Sublist
      (sumNames ++ FuClass.all.flatMap FuClass.rowNames) := by
  have classes : usage.toList.map Prod.fst = FuClass.all := by
    simp [toList, List.map_map, Function.comp_def]
  have names (p : FuClass × FuCounters → Bool) :=
    ((List.filter_sublist (p := p) (l := usage.toList)).map Prod.fst).flatMap FuClass.rowNames
  simp only [classes, List.flatMap_map] at names
  rw [rows, List.map_append, List.map_flatMap]
  apply List.Sublist.append (List.Sublist.refl _)
  simpa only [FuCounters.names_rows] using names _

/-- The names of the rows of the power do not depend on it. -/
theorem Power.names_rows (power : Power) (runtime : Float) :
    (power.rows runtime).map Row.name = (Power.empty.rows 0).map Row.name := by
  simp only [rows, Row.plain, List.map_cons, List.map_nil]

namespace Summary

/-- The rows in front of those of the opcodes. -/
def leadingRows (summary : Summary) : List Row :=
  summary.titleRow :: (summary.performance.rows ++ summary.memory.rows ++
    summary.memory.bandwidthRows summary.performance.totalCycles ++ summary.dataflow.rows)

/-- The rows behind those of the opcodes. -/
def trailingRows (summary : Summary) : List Row :=
  summary.units.rows summary.performance.totalCycles ++
    (summary.power.rows summary.performance.runtime ++ summary.area.rows ++
      summary.stalls.rows) ++ summary.cycles.elim [] CycleSummary.rows

theorem rows_eq_append (summary : Summary) :
    summary.rows =
      summary.leadingRows ++ (summary.dataflow.opcodeRows ++ summary.trailingRows) := by
  simp only [rows, leadingRows, trailingRows, titleRow, List.append_assoc, List.cons_append,
    List.nil_append]

/-- The names in front of those of the opcodes are the same in all reports. -/
theorem names_leadingRows (summary : Summary) :
    summary.leadingRows.map Row.name = leadingNames :=
  rfl

/-- The names behind those of the opcodes are among the fixed ones, in their order. -/
theorem names_trailingRows_sublist (summary : Summary) :
    (summary.trailingRows.map Row.name).Sublist trailingNames := by
  rw [trailingRows, List.map_append, List.map_append, trailingNames]
  apply List.Sublist.append
  · apply List.Sublist.append
    · exact FuUsage.names_rows_sublist summary.units _
    · rw [List.map_append, List.map_append, summary.power.names_rows, List.map_append,
        List.map_append]
      exact List.Sublist.refl _
  · cases summary.cycles with
    | none => exact List.nil_sublist _
    | some cycles => exact List.Sublist.refl _

/-- The names of all rows are pairwise distinct. -/
theorem nodup_names_rows (summary : Summary) : (summary.rows.map Row.name).Nodup := by
  obtain ⟨leading, trailing, apart⟩ := List.nodup_append.1 nodup_fixedNames
  have inTrailing := summary.names_trailingRows_sublist
  have opcode_ne {name : String} (opcode : name ∈ summary.dataflow.opcodeRows.map Row.name)
      {fixed : String} (known : fixed ∈ fixedNames) : fixed ≠ name := by
    rw [Dataflow.names_opcodeRows] at opcode
    obtain ⟨number, _, rfl⟩ := List.mem_map.1 opcode
    exact ne_of_mem_fixedNames known (toString number)
  rw [rows_eq_append, List.map_append, List.map_append, names_leadingRows]
  refine List.nodup_append.2 ⟨leading, List.nodup_append.2 ⟨?_, ?_, ?_⟩, ?_⟩
  · exact summary.dataflow.nodup_names_opcodeRows
  · exact inTrailing.nodup trailing
  · intro name opcode other behind
    have known : other ∈ fixedNames := List.mem_append_right _ (inTrailing.subset behind)
    exact (opcode_ne opcode known).symm
  · intro name front other behind
    rcases List.mem_append.1 behind with opcode | behind
    · exact opcode_ne opcode (List.mem_append_left _ front)
    · exact apart name front other (inTrailing.subset behind)

/-- No name holds a mark of a table. -/
theorem mark_notMem_name (summary : Summary) {row : Row} (member : row ∈ summary.rows)
    {mark : Char} (isMark : mark ∈ marks) : mark ∉ row.name.toList := by
  rw [rows_eq_append, List.mem_append, List.mem_append] at member
  rcases member with front | opcode | behind
  · have known : row.name ∈ fixedNames :=
      List.mem_append_left _ (summary.names_leadingRows ▸ List.mem_map_of_mem front)
    exact mark_notMem_of_mem_fixedNames known isMark
  · have named : row.name ∈ summary.dataflow.opcodeRows.map Row.name := List.mem_map_of_mem opcode
    rw [Dataflow.names_opcodeRows] at named
    obtain ⟨number, _, isName⟩ := List.mem_map.1 named
    rw [← isName, String.toList_append, List.mem_append]
    have allOutside : (marks.all fun mark =>
        mark ∉ Dataflow.opcodePrefix.toList ∧ mark.isDigit = false) = true := by decide
    have outside := of_decide_eq_true (List.all_eq_true.1 allOutside mark isMark)
    rintro (inPrefix | inDigits)
    · exact outside.1 inPrefix
    · rw [Nat.toString_eq_ofList_toDigits, String.toList_ofList] at inDigits
      have isDigit := Nat.isDigit_of_mem_toDigits (by decide) (by decide) inDigits
      exact absurd isDigit (by simp [outside.2])
  · have known : row.name ∈ fixedNames :=
      List.mem_append_right _
        (summary.names_trailingRows_sublist.subset (List.mem_map_of_mem behind))
    exact mark_notMem_of_mem_fixedNames known isMark

end Summary

end AccelProfile
