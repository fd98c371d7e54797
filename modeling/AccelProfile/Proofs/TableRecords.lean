import AccelProfile.Proofs.RowNames
import AccelProfile.Report.Table

/-!
# The records of a table

A reader of tables goes through a text one character after the other. Outside quotes a comma
ends a column and a line feed ends a record; between quotes both stand for themselves, and
two quotes in a row stand for one. What such a reader makes of the table of a report is one
record for each row, under the record of the header.
-/

namespace AccelProfile

namespace Decimal

/-- Placing a point adds zeros, the point and the ending to the digits. -/
theorem mem_placePoint {digits : List Char} {places : Int} {ending : List Char} {c : Char}
    (inside : c ∈ placePoint digits places ending) : c ∈ digits ∨ c ∈ '0' :: '.' :: ending := by
  rw [placePoint] at inside
  split at inside
  · simp only [List.mem_cons, List.mem_append] at inside ⊢
    rcases inside with zero | point | filled | digit
    · exact .inr (.inl zero)
    · exact .inr (.inr (.inl point))
    · exact .inr (.inl (List.eq_of_mem_replicate filled))
    · exact .inl digit
  · split at inside
    · simp only [List.mem_cons, List.mem_append] at inside ⊢
      rcases inside with (digit | filled) | ending
      · exact .inl digit
      · exact .inr (.inl (List.eq_of_mem_replicate filled))
      · exact .inr (.inr (.inr ending))
    · simp only [List.mem_cons, List.mem_append] at inside ⊢
      rcases inside with front | point | back
      · exact .inl (List.mem_of_mem_take front)
      · exact .inr (.inr (.inl point))
      · exact .inl (List.mem_of_mem_drop back)

/-- The text of a double in a report is made of digits, a sign, a point and the letters of
the values that are not finite. -/
theorem mem_reportText {x : Float} {c : Char} (inside : c ∈ reportStyle.text x) :
    c.isDigit ∨ c ∈ "-.NaNinf".toList := by
  have letter {letters : List Char} (member : c ∈ letters)
      (known : letters ⊆ "-.NaNinf".toList) : c.isDigit ∨ c ∈ "-.NaNinf".toList :=
    .inr (known member)
  have ofSign {sign : Float.Model.UnpackedFloat.Sign} (member : c ∈ signText sign) :
      c.isDigit ∨ c ∈ "-.NaNinf".toList := by
    cases sign with
    | positive => simp [signText] at member
    | negative => exact letter member (by decide)
  rw [Style.text] at inside
  split at inside
  · exact letter inside (by decide)
  · rcases List.mem_append.1 inside with sign | name
    · exact ofSign sign
    · exact letter name (by decide)
  · rcases List.mem_append.1 inside with sign | zero
    · exact ofSign sign
    · exact .inl (List.mem_singleton.1 zero ▸ rfl)
  · rcases List.mem_append.1 inside with sign | number
    · exact ofSign sign
    · rcases mem_placePoint number with digit | filling
      · exact .inl (Nat.isDigit_of_mem_toDigits (by decide) (by decide) digit)
      · rcases List.mem_cons.1 filling with rfl | point
        · exact .inl rfl
        · exact letter point (by decide)

end Decimal

namespace Report

/-- A text of characters that are no marks of a table needs no quotes. -/
theorem needsQuotes_eq_false {text : List Char}
    (unmarked : ∀ c ∈ text, c ∉ [',', '"', '\n']) : needsQuotes text = false := by
  rw [needsQuotes, List.any_eq_false]
  intro c inside
  simpa [and_assoc] using unmarked c inside

theorem needsQuotes_cons_eq_false {c : Char} {text : List Char} :
    needsQuotes (c :: text) = false ↔
      (c ≠ ',' ∧ c ≠ '"' ∧ c ≠ '\n') ∧ needsQuotes text = false := by
  simp [needsQuotes, and_assoc]

/-- Where a reader is in a column. -/
inductive Place
  /-- In front of it. -/
  | start
  /-- In a column without quotes. -/
  | plain
  /-- Between quotes. -/
  | quoted
  /-- Behind a quote that closes the column, unless another one follows. -/
  | closing
  deriving DecidableEq

/-- How far a reader of a table has come. -/
structure Reading where
  /-- The records that have ended. -/
  records : List (List (List Char))
  /-- The columns of the record under way that have ended. -/
  columns : List (List Char)
  /-- The characters of the column under way. -/
  seen : List Char
  place : Place

namespace Reading

/-- A reader in front of a record. -/
def between (records : List (List (List Char))) : Reading :=
  ⟨records, [], [], .start⟩

/-- One more character of the column under way. -/
def push (reading : Reading) (c : Char) (place : Place) : Reading :=
  { reading with seen := reading.seen ++ [c], place }

/-- Reads one character. -/
def step (reading : Reading) (c : Char) : Reading :=
  if reading.place = .quoted then
    if c = '"' then { reading with place := .closing } else reading.push c .quoted
  else if c = ',' then
    ⟨reading.records, reading.columns ++ [reading.seen], [], .start⟩
  else if c = '\n' then
    between (reading.records ++ [reading.columns ++ [reading.seen]])
  else if c = '"' ∧ reading.place = .start then { reading with place := .quoted }
  else if c = '"' ∧ reading.place = .closing then reading.push c .quoted
  else reading.push c .plain

/-- Between quotes, a text with its quotes doubled is read as the text. -/
theorem foldl_doubled (reading : Reading) (quoted : reading.place = .quoted) (text : List Char) :
    (text.flatMap doubled).foldl step reading = { reading with seen := reading.seen ++ text } := by
  induction text generalizing reading with
  | nil => simp
  | cons c text ih =>
    have once : (doubled c).foldl step reading = reading.push c .quoted := by
      by_cases quote : c = '"'
      · subst quote
        simp [doubled, step, quoted, push]
      · simp [doubled, quote, step, quoted]
    rw [List.flatMap_cons, List.foldl_append, once, ih _ rfl]
    simp [push, quoted]

/-- Outside quotes, a text without marks is read as it is. -/
theorem foldl_unquoted (reading : Reading) (outside : reading.place ≠ .quoted) {text : List Char}
    (unmarked : needsQuotes text = false) :
    ∃ place, place ≠ .quoted ∧
      text.foldl step reading = { reading with seen := reading.seen ++ text, place } := by
  induction text generalizing reading with
  | nil => exact ⟨reading.place, outside, by simp⟩
  | cons c text ih =>
    obtain ⟨⟨noComma, noQuote, noLineFeed⟩, rest⟩ := needsQuotes_cons_eq_false.1 unmarked
    have once : step reading c = reading.push c .plain := by
      simp [step, outside, noComma, noQuote, noLineFeed]
    obtain ⟨place, ended, reads⟩ := ih (reading.push c .plain) (by simp [push]) rest
    refine ⟨place, ended, ?_⟩
    rw [List.foldl_cons, once, reads]
    simp [push]

/-- A column is read as the text that it was made from. -/
theorem foldl_column (records : List (List (List Char))) (columns : List (List Char))
    (text : List Char) :
    ∃ place, place ≠ .quoted ∧
      (column text).foldl step ⟨records, columns, [], .start⟩ =
        ⟨records, columns, text, place⟩ := by
  by_cases marked : needsQuotes text
  · refine ⟨.closing, by decide, ?_⟩
    have opened : step ⟨records, columns, [], .start⟩ '"' = ⟨records, columns, [], .quoted⟩ := by
      simp [step]
    rw [column, if_pos marked, List.foldl_cons, opened, List.foldl_append, foldl_doubled _ rfl]
    simp [step]
  · rw [column, if_neg marked]
    exact foldl_unquoted ⟨records, columns, [], .start⟩ nofun (by simpa using marked)

/-- A line is read as a record of two columns. -/
theorem foldl_line (records : List (List (List Char))) (name value : List Char) :
    (line (column name) (column value)).foldl step (between records) =
      between (records ++ [[name, value]]) := by
  obtain ⟨place, outside, readsName⟩ := foldl_column records [] name
  obtain ⟨last, ended, readsValue⟩ := foldl_column records [name] value
  have comma : step ⟨records, [], name, place⟩ ',' = ⟨records, [name], [], .start⟩ := by
    simp [step, outside]
  have lineFeed : step ⟨records, [name], value, last⟩ '\n' =
      between (records ++ [[name, value]]) := by
    simp [step, ended]
  calc (line (column name) (column value)).foldl step (between records)
      = (column value ++ ['\n']).foldl step
          (step ((column name).foldl step (between records)) ',') := by
        rw [line, List.foldl_append, List.foldl_cons]
    _ = ((column value).foldl step ⟨records, [name], [], .start⟩ |> (step · '\n')) := by
        rw [between, readsName, List.foldl_append]
        exact congrArg (fun reading => step ((column value).foldl step reading) '\n') comma
    _ = between (records ++ [[name, value]]) := by
        rw [readsValue]
        exact lineFeed

end Reading

/-- The records of a text, each with its columns. -/
def records (text : List Char) : List (List (List Char)) :=
  (text.foldl Reading.step (Reading.between [])).records

/-- The lines of named values are read as one record each. -/
theorem foldl_lines (lines : List (List Char × List Char)) (known : List (List (List Char))) :
    (lines.flatMap fun (name, value) => line (column name) (column value)).foldl Reading.step
        (Reading.between known) =
      Reading.between (known ++ lines.map fun (name, value) => [name, value]) := by
  induction lines generalizing known with
  | nil => simp
  | cons head tail ih =>
    rw [List.flatMap_cons, List.foldl_append, Reading.foldl_line, ih]
    simp

/-- Only texts can need quotes, so every value stands in the table as any text would. -/
theorem valueColumn_eq_column (value : Metric) : valueColumn value = column value.display := by
  have unmarked {text : List Char} (plain : ∀ c ∈ text, c.isDigit ∨ c ∈ "-.NaNinf".toList) :
      text = column text := by
    have unquoted : needsQuotes text = false := by
      apply needsQuotes_eq_false
      intro c inside isMark
      have isPlain := plain c inside
      simp only [List.mem_cons, List.not_mem_nil, or_false] at isMark
      rcases isMark with rfl | rfl | rfl <;> exact absurd isPlain (by decide)
    rw [column, unquoted]
    rfl
  cases value with
  | int value =>
    exact unmarked fun c digit => .inl (Nat.isDigit_of_mem_toDigits (by decide) (by decide) digit)
  | float value => exact unmarked fun c inside => Decimal.mem_reportText inside
  | text value => rfl

end Report

namespace Summary

open Report

/-- What the lines of a table say: the header, and then the name of each row and its value. -/
def tableLines (summary : Summary) : List (List Char × List Char) :=
  ("metric".toList, "value".toList) ::
    summary.rows.map fun row => (row.name.toList, row.value.display)

/-- The columns of a table are made of what its lines say. No name needs quotes. -/
theorem table_eq_lines (summary : Summary) :
    table summary.rows =
      summary.tableLines.flatMap fun (name, value) => line (column name) (column value) := by
  have unquoted : ∀ row ∈ summary.rows, column row.name.toList = row.name.toList := by
    intro row member
    have unmarked : needsQuotes row.name.toList = false :=
      needsQuotes_eq_false fun c inName isMark =>
        summary.mark_notMem_name member (List.mem_append_left ['\r'] isMark) inName
    rw [column, unmarked]
    rfl
  rw [table, tableLines, List.flatMap_cons, List.flatMap_map]
  refine congrArg₂ (· ++ ·) rfl (List.flatMap_congr fun row member => ?_)
  simp only [valueColumn_eq_column, unquoted row member]

/-- The table of a summary has the record of the header and then one record for each row, in
the order of the rows, with the name of the row and its value. -/
theorem records_table (summary : Summary) :
    records (table summary.rows) =
      ["metric".toList, "value".toList] ::
        summary.rows.map fun row => [row.name.toList, row.value.display] := by
  rw [records, table_eq_lines, foldl_lines]
  simp [tableLines, Reading.between]

end Summary

end AccelProfile
