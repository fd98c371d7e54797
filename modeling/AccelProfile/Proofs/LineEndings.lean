import AccelProfile.Proofs.TableReader

/-!
# Tables read with either end of a record

Some readers of tables take a carriage return in front of a line feed for a part of the end of the
record. To such a reader, a text that stands in a table as it is and ends in a carriage return loses
that character: a text is put between quotes for its commas, quotes and line feeds, and not for its
carriage returns. Nothing else is lost. No name of a row and no value but the name of the
accelerator has a carriage return anywhere, and a quote protects all that follows it.

So such a reader finds the records of a table as they were written exactly if the name of the
accelerator has something that is quoted or does not end in a carriage return.
-/

namespace AccelProfile

/-! ## Where carriage returns can be -/

namespace Metric

/-- A metric whose text has no carriage return. -/
def Unreturned : Metric → Prop
  | .int _ | .float _ => True
  | .text value => '\r' ∉ value.toList

@[simp]
theorem unreturned_int (value : Nat) : (int value).Unreturned := trivial

@[simp]
theorem unreturned_float (value : Float) : (float value).Unreturned := trivial

theorem unreturned_text {value : String} : (text value).Unreturned ↔ '\r' ∉ value.toList :=
  Iff.rfl

theorem return_notMem_display {metric : Metric} (unreturned : metric.Unreturned) :
    '\r' ∉ metric.display := by
  cases metric with
  | int value =>
    exact fun inside => absurd (Nat.isDigit_of_mem_toDigits (by decide) (by decide) inside)
      (by decide)
  | float value => exact fun inside => absurd (Decimal.mem_reportText inside) (by decide)
  | text value => exact unreturned

end Metric

/-- All rows have metrics whose texts have no carriage return. -/
def Row.Unreturned (rows : List Row) : Prop :=
  ∀ row ∈ rows, row.value.Unreturned

theorem Row.unreturned_append {front back : List Row} :
    Unreturned (front ++ back) ↔ Unreturned front ∧ Unreturned back :=
  List.forall_mem_append

theorem Dataflow.unreturned_opcodeRows (dataflow : Dataflow) :
    Row.Unreturned dataflow.opcodeRows := by
  intro row member
  obtain ⟨⟨opcode, count⟩, _, rfl⟩ := List.mem_map.1 member
  exact Metric.unreturned_int count

theorem FuUsage.unreturned_rows (usage : FuUsage) (totalCycles : Nat) :
    Row.Unreturned (usage.rows totalCycles) := by
  have contended : (Metric.text (usage.mostContended.elim "none" FuClass.name)).Unreturned := by
    rw [Metric.unreturned_text]
    cases usage.mostContended with
    | none => decide
    | some fu => cases fu <;> decide
  rw [rows, Row.unreturned_append]
  constructor
  · simp [Row.Unreturned, Row.underPrefix, contended]
  · intro row member
    obtain ⟨⟨fu, counters⟩, _, inside⟩ := List.mem_flatMap.1 member
    have ofClass : Row.Unreturned (counters.rows fu totalCycles) := by
      simp [Row.Unreturned, FuCounters.rows, Row.underPrefix]
    exact ofClass row inside

theorem StallBreakdown.unreturned_rows (stalls : StallBreakdown) :
    Row.Unreturned stalls.rows := by
  have bottleneck :
      (Metric.text (stalls.dominantCause.elim "none" StallCause.name)).Unreturned := by
    rw [Metric.unreturned_text]
    cases stalls.dominantCause with
    | none => decide
    | some cause => cases cause <;> decide
  rw [rows, Row.unreturned_append]
  constructor
  · intro row member
    obtain ⟨⟨cause, count⟩, _, rfl⟩ := List.mem_map.1 member
    exact Metric.unreturned_int count
  · simp [Row.Unreturned, Row.plain, bottleneck]

namespace Summary

/-- No metric behind the name of the accelerator has a carriage return in its text. -/
theorem unreturned_sections (summary : Summary) :
    Row.Unreturned (summary.sections.flatMap Prod.snd) := by
  simp only [sections, List.flatMap_cons, List.flatMap_nil, Row.unreturned_append]
  refine ⟨?_, ?_, ?_, ?_, summary.dataflow.unreturned_opcodeRows,
    summary.units.unreturned_rows _, ?_, ?_, summary.stalls.unreturned_rows, ?_, ?_⟩
  · simp [Row.Unreturned, Performance.rows, Row.plain]
  · simp [Row.Unreturned, MemoryTraffic.rows, Row.plain]
  · simp [Row.Unreturned, MemoryTraffic.bandwidthRows, Row.plain]
  · simp [Row.Unreturned, Dataflow.rows, Row.plain]
  · simp [Row.Unreturned, Power.rows, Row.plain]
  · simp [Row.Unreturned, Area.rows, Row.plain]
  · cases summary.cycles with
    | none => simp [Row.Unreturned]
    | some cycles => simp [Row.Unreturned, CycleSummary.rows, Row.underPrefix]
  · simp [Row.Unreturned]

end Summary

/-! ## What is read -/

namespace Report

variable {ending : RecordEnd} {text : List Char}

theorem RecordEnd.spares_of_notMem (noReturn : '\r' ∉ text) : ending.Spares text :=
  fun _ _ last => noReturn (List.mem_of_getLast? last)

/-- What is left of a text for a reader that takes a carriage return in front of a line feed for a
part of the end of the record. -/
def withoutReturn (text : List Char) : List Char :=
  if needsQuotes text = false ∧ text.getLast? = some '\r' then text.dropLast else text

theorem withoutReturn_eq_self_iff :
    withoutReturn text = text ↔ needsQuotes text = true ∨ text.getLast? ≠ some '\r' := by
  rw [withoutReturn]
  split
  · next lost =>
    obtain ⟨unmarked, last⟩ := lost
    have nonempty : text ≠ [] := by
      rintro rfl
      cases last
    have shorter : text.dropLast ≠ text := fun same => by
      have lengths := congrArg List.length same
      have positive := List.length_pos_iff.2 nonempty
      rw [List.length_dropLast] at lengths
      omega
    simp [shorter, unmarked, last]
  · next kept =>
    cases marked : needsQuotes text <;> simp_all

/-- A named value is read as a record of two columns, but for a carriage return that the reader takes
for a part of the end. -/
theorem readRecords_returnLine {name value : List Char} (noReturn : '\r' ∉ name)
    (rest : List Char) :
    readRecords .optionalReturn (line (column name) (column value) ++ rest) =
      (readRecords .optionalReturn rest).map ([name, withoutReturn value] :: ·) := by
  have sparedName : RecordEnd.optionalReturn.Spares name := RecordEnd.spares_of_notMem noReturn
  rw [withoutReturn]
  split
  · next lost =>
    obtain ⟨unmarked, last⟩ := lost
    obtain ⟨front, rfl⟩ := List.getLast?_eq_some_iff.1 last
    have unmarkedFront : needsQuotes front = false := by
      simpa [needsQuotes] using unmarked
    have stops : readPlain .optionalReturn ('\r' :: '\n' :: rest) = ([], '\r' :: '\n' :: rest) := by
      rw [readPlain, if_pos (.inr rfl)]
    have readValue : readColumn .optionalReturn (front ++ '\r' :: '\n' :: rest) =
        some (front, '\r' :: '\n' :: rest) := by
      rw [readColumn_eq_readPlain (head?_append_ne_quote unmarkedFront (by decide)),
        readPlain_upTo stops unmarkedFront fun _ _ => by simp]
    have unquoted : column (front ++ ['\r']) = front ++ ['\r'] := by
      rw [column, unmarked, if_neg Bool.false_ne_true]
    have shape : line (column name) (column (front ++ ['\r'])) ++ rest =
        column name ++ ',' :: (front ++ '\r' :: '\n' :: rest) := by
      simp [line, unquoted]
    rw [shape, readRecords_named sparedName readValue (by decide) rfl, List.dropLast_concat]
  · next kept =>
    have sparedValue : RecordEnd.optionalReturn.Spares value := fun _ unmarked last =>
      kept ⟨unmarked, last⟩
    exact readRecords_line sparedName sparedValue

end Report

namespace Summary

open Report

/-- The records of a table with a text in the place of the name of the accelerator: the header,
that text under its name, and then the names and values of all other rows. -/
def recordsNamed (summary : Summary) (acceleratorName : List Char) : List (List (List Char)) :=
  ["metric".toList, "value".toList] :: ["accelerator_name".toList, acceleratorName] ::
    (summary.sections.flatMap Prod.snd).map fun row => [row.name.toList, row.value.display]

theorem recordsNamed_inj (summary : Summary) {name other : List Char} :
    summary.recordsNamed name = summary.recordsNamed other ↔ name = other := by
  simp [recordsNamed]

/-- Nothing behind the name of the accelerator is lost, and of the name only what `withoutReturn`
leaves out. -/
theorem readRecords_optionalReturn (summary : Summary) :
    readRecords .optionalReturn summary.tableText.toList =
      some (summary.recordsNamed (withoutReturn summary.acceleratorName.toList)) := by
  let following := (summary.sections.flatMap Prod.snd).map fun row =>
    (row.name.toList, row.value.display)
  have lines : summary.tableLines = ("metric".toList, "value".toList) ::
      ("accelerator_name".toList, summary.acceleratorName.toList) :: following := by
    rw [tableLines, rows_eq_sections]
    rfl
  have spared : ∀ entry ∈ following, RecordEnd.optionalReturn.Spares entry.1 ∧
      RecordEnd.optionalReturn.Spares entry.2 := by
    intro entry member
    obtain ⟨row, inSections, rfl⟩ := List.mem_map.1 member
    have inRows : row ∈ summary.rows := by
      rw [rows_eq_sections]
      exact List.mem_cons_of_mem _ inSections
    have noReturn : '\r' ∉ row.name.toList := summary.mark_notMem_name inRows (by decide)
    exact ⟨RecordEnd.spares_of_notMem noReturn, RecordEnd.spares_of_notMem
      (Metric.return_notMem_display (summary.unreturned_sections row inSections))⟩
  have header : RecordEnd.optionalReturn.Spares "metric".toList ∧
      RecordEnd.optionalReturn.Spares "value".toList :=
    ⟨RecordEnd.spares_of_notMem (by decide), RecordEnd.spares_of_notMem (by decide)⟩
  have readFollowing := readRecords_lines following spared
  rw [tableText, String.toList_ofList, table_eq_lines, lines, List.flatMap_cons, List.flatMap_cons,
    readRecords_line header.1 header.2, readRecords_returnLine (by decide), readFollowing,
    recordsNamed]
  simp [following]

/-- A reader that takes a carriage return in front of a line feed for a part of the end of a record
finds all records of a table as they were written, but for a last carriage return of the name of the
accelerator where that is not quoted. So it finds the name as well exactly if the name holds a comma,
a quote or a line feed, or does not end in a carriage return. -/
theorem name_read_with_returns_iff (summary : Summary) :
    let name := summary.acceleratorName.toList
    let found := readRecords .optionalReturn summary.tableText.toList
    found = some (summary.recordsNamed (withoutReturn name)) ∧
      (found = some (summary.recordsNamed name) ↔
        needsQuotes name = true ∨ name.getLast? ≠ some '\r') := by
  intro name found
  have read : found = some (summary.recordsNamed (withoutReturn name)) :=
    summary.readRecords_optionalReturn
  refine ⟨read, ?_⟩
  rw [read, Option.some.injEq, recordsNamed_inj, withoutReturn_eq_self_iff]

/-- Not every name comes back from a table that is read in this way: one that ends in a carriage
return, and has nothing that is quoted, comes back without it. -/
theorem trailing_return_lost :
    ¬ ∀ summary : Summary, readRecords .optionalReturn summary.tableText.toList =
      some (summary.recordsNamed summary.acceleratorName.toList) := by
  intro readBack
  have unchanged := readBack { empty with acceleratorName := "acc\r" }
  rw [readRecords_optionalReturn, Option.some.injEq, recordsNamed_inj] at unchanged
  exact absurd unchanged (by decide)

end Summary

end AccelProfile
