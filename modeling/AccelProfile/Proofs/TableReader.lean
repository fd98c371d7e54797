import AccelProfile.Proofs.TableRecords

/-!
# Reading a table column by column

A column that starts with a quote runs to the quote that closes it, with two quotes in a row for
one, and may have commas and line feeds inside. Any other column runs up to the next comma or the
end of the record. Behind a column there is a comma, or the record ends, or the text. A reader that
keeps to this refuses a text that breaks off between quotes or goes on behind the closing one.

A text in quotes is read back whatever follows it. A text that stands as it is does not start with
a quote and has neither a comma nor a line feed, so nothing in it ends the column before the mark
that was put there for it. Where a carriage return may belong to the end of a record, it is taken
from the column in front of it. A column must not end in one then, unless it is quoted.
-/

namespace AccelProfile

namespace Report

/-! ## The reader -/

/-- What ends a record outside quotes. -/
inductive RecordEnd
  /-- A line feed. -/
  | lineFeed
  /-- A line feed, or a carriage return and a line feed. -/
  | optionalReturn
  deriving DecidableEq

/-- What is behind the end of a record, where a text starts with one. -/
def RecordEnd.behind? (ending : RecordEnd) : List Char → Option (List Char)
  | '\n' :: behind => some behind
  | '\r' :: '\n' :: behind => if ending = optionalReturn then some behind else none
  | _ => none

/-- One more character in front of what was read. -/
def withChar (c : Char) : List Char × List Char → List Char × List Char
  | (column, rest) => (c :: column, rest)

/-- Reads on between quotes: the text up to the closing quote, and what is behind it. -/
def readQuoted : List Char → Option (List Char × List Char)
  | [] => none
  | '"' :: '"' :: text => (readQuoted text).map (withChar '"')
  | '"' :: behind => some ([], behind)
  | c :: text => (readQuoted text).map (withChar c)

/-- Reads a column without quotes: the text up to a comma or the end of the record, and what is
left from there on. -/
def readPlain (ending : RecordEnd) : List Char → List Char × List Char
  | [] => ([], [])
  | c :: text =>
    if c = ',' ∨ (ending.behind? (c :: text)).isSome then ([], c :: text)
    else withChar c (readPlain ending text)

/-- Reads a column, and tells what is left behind it. -/
def readColumn (ending : RecordEnd) : List Char → Option (List Char × List Char)
  | '"' :: text => readQuoted text
  | text => some (readPlain ending text)

variable {ending : RecordEnd} {text first rest : List Char}

theorem length_of_behind? {behind : List Char} (ended : ending.behind? text = some behind) :
    behind.length < text.length := by
  unfold RecordEnd.behind? at ended
  split at ended
  · cases ended
    exact Nat.lt_succ_self _
  · obtain ⟨-, same⟩ := Option.ite_none_right_eq_some.1 ended
    cases same
    exact Nat.lt_succ_of_lt (Nat.lt_succ_self _)
  · cases ended

theorem length_of_readQuoted (found : readQuoted text = some (first, rest)) :
    rest.length < text.length := by
  induction text using readQuoted.induct generalizing first with
  | case1 => cases found
  | case2 text ih =>
    obtain ⟨inner, read, same⟩ := Option.map_eq_some_iff.1 found
    obtain ⟨-, rfl⟩ := Prod.mk.inj same
    exact Nat.lt_succ_of_lt (Nat.lt_succ_of_lt (ih read))
  | case3 behind single =>
    rw [readQuoted.eq_3 behind single] at found
    cases found
    exact Nat.lt_succ_self _
  | case4 c text notDoubled notClosing ih =>
    rw [readQuoted.eq_4 c text notDoubled notClosing] at found
    obtain ⟨inner, read, same⟩ := Option.map_eq_some_iff.1 found
    obtain ⟨-, rfl⟩ := Prod.mk.inj same
    exact Nat.lt_succ_of_lt (ih read)

theorem length_readPlain_le (ending : RecordEnd) (text : List Char) :
    (readPlain ending text).2.length ≤ text.length := by
  induction text with
  | nil => exact Nat.le_refl _
  | cons c text ih =>
    rw [readPlain]
    split
    · exact Nat.le_refl _
    · exact Nat.le_succ_of_le ih

theorem length_of_readColumn (found : readColumn ending text = some (first, rest)) :
    rest.length ≤ text.length := by
  rw [readColumn.eq_def] at found
  split at found
  · exact Nat.le_succ_of_le (Nat.le_of_lt (length_of_readQuoted found))
  · have same : (readPlain ending text).2 = rest := congrArg Prod.snd (Option.some.inj found)
    exact same ▸ length_readPlain_le ending text

/-- Reads the records of a text from the front of a column on. -/
def readFrom (ending : RecordEnd) (text : List Char) : Option (List (List (List Char))) :=
  match _ : readColumn ending text with
  | none => none
  | some (column, []) => some [[column]]
  | some (column, mark :: rest) =>
    if mark = ',' then
      (readFrom ending rest).map (List.modifyHead (column :: ·))
    else
      match _ : ending.behind? (mark :: rest) with
      | none => none
      | some behind =>
        if behind = [] then some [[column]]
        else (readFrom ending behind).map ([column] :: ·)
termination_by text.length
decreasing_by
  all_goals have shorter := length_of_readColumn ‹readColumn ending text = _›
  · exact shorter
  · exact Nat.lt_of_lt_of_le (length_of_behind? ‹_›) shorter

/-- The records of a text, unless the text is no table. -/
def readRecords (ending : RecordEnd) (text : List Char) : Option (List (List (List Char))) :=
  if text = [] then some [] else readFrom ending text

/-! ## Texts that are read back -/

/-- A comma behind a column: the record goes on. -/
theorem readFrom_comma (found : readColumn ending text = some (first, ',' :: rest)) :
    readFrom ending text = (readFrom ending rest).map (List.modifyHead (first :: ·)) := by
  rw [readFrom]
  split <;> simp_all

/-- The end of a record behind a column: another record starts, unless the text ends there. -/
theorem readFrom_ended {mark : Char} {more : List Char}
    (found : readColumn ending text = some (first, mark :: more)) (noComma : mark ≠ ',')
    (ended : ending.behind? (mark :: more) = some rest) :
    readFrom ending text = (readRecords ending rest).map ([first] :: ·) := by
  have continued : (readRecords ending rest).map ([first] :: ·) =
      if rest = [] then some [[first]] else (readFrom ending rest).map ([first] :: ·) := by
    rw [readRecords]
    split <;> rfl
  rw [readFrom, continued]
  split
  · simp_all
  · simp_all
  · next read =>
    obtain ⟨rfl, rfl, rfl⟩ := by simpa using found.symm.trans read
    rw [if_neg noComma]
    split <;> simp_all

/-- Between quotes, a text with its quotes doubled is read up to the quote behind it, unless
another one follows. -/
theorem readQuoted_doubled (text : List Char) (apart : rest.head? ≠ some '"') :
    readQuoted (text.flatMap doubled ++ '"' :: rest) = some (text, rest) := by
  induction text with
  | nil =>
    apply readQuoted.eq_3
    rintro behind rfl
    exact apart rfl
  | cons c text ih =>
    rw [List.flatMap_cons, List.append_assoc, doubled]
    split
    · next quote =>
      rw [List.cons_append, List.singleton_append, readQuoted, ih, quote]
      rfl
    · next noQuote =>
      rw [List.singleton_append, readQuoted.eq_4 c _ (fun _ quote => absurd quote noQuote) noQuote,
        ih]
      rfl

/-- No record ends at a character that is no line feed, unless it is a carriage return that may
belong to the line feed behind it. -/
theorem RecordEnd.behind?_eq_none {c : Char} {next : List Char} (noLineFeed : c ≠ '\n')
    (whole : ending = optionalReturn → c = '\r' → next.head? ≠ some '\n') :
    ending.behind? (c :: next) = none := by
  unfold behind?
  split
  · next same => exact absurd (List.cons.inj same).1 noLineFeed
  · next same =>
    obtain ⟨rfl, rfl⟩ := List.cons.inj same
    exact if_neg fun optional => whole optional rfl rfl
  · rfl

/-- Nothing at the end of a column that is made of a text belongs to the end of a record. -/
def RecordEnd.Spares (ending : RecordEnd) (text : List Char) : Prop :=
  ending = optionalReturn → needsQuotes text = false → text.getLast? ≠ some '\r'

theorem RecordEnd.lineFeed_spares (text : List Char) : lineFeed.Spares text := nofun

/-- A text without marks is read up to where the reader stops behind it. A carriage return at its
end must not be taken for a part of what is there. -/
theorem readPlain_upTo {stop : List Char} (stops : readPlain ending stop = ([], stop))
    (unmarked : needsQuotes text = false)
    (whole : ending = .optionalReturn → text.getLast? = some '\r' → stop.head? ≠ some '\n') :
    readPlain ending (text ++ stop) = (text, stop) := by
  induction text with
  | nil => rw [List.nil_append, stops]
  | cons c text ih =>
    obtain ⟨⟨noComma, -, noLineFeed⟩, unmarkedRest⟩ := needsQuotes_cons_eq_false.1 unmarked
    -- A carriage return has another character of the text behind it, and that is no line feed.
    have goesOn : ending.behind? (c :: (text ++ stop)) = none := by
      refine RecordEnd.behind?_eq_none noLineFeed fun optional isReturn => ?_
      cases text with
      | nil => exact whole optional (congrArg some isReturn)
      | cons second text => simpa using (needsQuotes_cons_eq_false.1 unmarkedRest).1.2.2
    have wholeRest : ending = .optionalReturn → text.getLast? = some '\r' →
        stop.head? ≠ some '\n' := fun optional last =>
      whole optional (by rw [List.getLast?_cons, last]; rfl)
    rw [List.cons_append, readPlain, goesOn, if_neg (by simp [noComma]),
      ih unmarkedRest wholeRest]
    rfl

/-- A text without marks is read up to the comma or line feed behind it. -/
theorem readPlain_append (unmarked : needsQuotes text = false) (spared : ending.Spares text)
    {mark : Char} (isMark : mark = ',' ∨ mark = '\n') :
    readPlain ending (text ++ mark :: rest) = (text, mark :: rest) := by
  have stops : readPlain ending (mark :: rest) = ([], mark :: rest) := by
    rw [readPlain, if_pos]
    rcases isMark with rfl | rfl
    · exact .inl rfl
    · exact .inr rfl
  exact readPlain_upTo stops unmarked fun optional last => absurd last (spared optional unmarked)

/-- A text that does not start with a quote is read as a column without quotes. -/
theorem readColumn_eq_readPlain (unquoted : text.head? ≠ some '"') :
    readColumn ending text = some (readPlain ending text) := by
  apply readColumn.eq_2
  rintro behind rfl
  exact unquoted rfl

/-- A text without marks starts with no quote, and neither does what it stands in front of. -/
theorem head?_append_ne_quote (unmarked : needsQuotes text = false) {mark : Char}
    (noQuote : mark ≠ '"') : (text ++ mark :: rest).head? ≠ some '"' := by
  cases text with
  | nil => simpa using noQuote
  | cons c text => simpa using (needsQuotes_cons_eq_false.1 unmarked).1.2.1

/-- A column is read as the text that it was made from. -/
theorem readColumn_column (spared : ending.Spares text) {mark : Char}
    (isMark : mark = ',' ∨ mark = '\n') :
    readColumn ending (column text ++ mark :: rest) = some (text, mark :: rest) := by
  have noQuote : mark ≠ '"' := by rcases isMark with rfl | rfl <;> decide
  cases marked : needsQuotes text with
  | true =>
    rw [column, if_pos marked, List.cons_append, List.append_assoc, readColumn]
    exact readQuoted_doubled text (by simpa using noQuote)
  | false =>
    rw [column, marked, if_neg nofun,
      readColumn_eq_readPlain (head?_append_ne_quote marked noQuote),
      readPlain_append marked spared isMark]

/-- A named value is read as a record of two columns, if the value is read up to the end of a
record. -/
theorem readRecords_named {name value : List Char} (sparedName : ending.Spares name) {mark : Char}
    {more : List Char} (readValue : readColumn ending text = some (value, mark :: more))
    (noComma : mark ≠ ',') (ended : ending.behind? (mark :: more) = some rest) :
    readRecords ending (column name ++ ',' :: text) =
      (readRecords ending rest).map ([name, value] :: ·) := by
  have readName : readColumn ending (column name ++ ',' :: text) = some (name, ',' :: text) :=
    readColumn_column sparedName (.inl rfl)
  have nonempty : column name ++ ',' :: text ≠ [] := by simp
  rw [readRecords, if_neg nonempty, readFrom_comma readName,
    readFrom_ended readValue noComma ended, Option.map_map]
  rfl

/-- A line is read as a record of two columns. -/
theorem readRecords_line {name value : List Char} (sparedName : ending.Spares name)
    (sparedValue : ending.Spares value) :
    readRecords ending (line (column name) (column value) ++ rest) =
      (readRecords ending rest).map ([name, value] :: ·) := by
  have shape : line (column name) (column value) ++ rest =
      column name ++ ',' :: (column value ++ '\n' :: rest) := by
    simp [line]
  rw [shape]
  exact readRecords_named sparedName (readColumn_column sparedValue (.inr rfl)) (by decide) rfl

/-- The lines of named values are read as one record each. -/
theorem readRecords_lines (lines : List (List Char × List Char))
    (spared : ∀ entry ∈ lines, ending.Spares entry.1 ∧ ending.Spares entry.2) :
    readRecords ending
        (lines.flatMap fun (name, value) => line (column name) (column value)) =
      some (lines.map fun (name, value) => [name, value]) := by
  induction lines with
  | nil => rfl
  | cons head tail ih =>
    obtain ⟨sparedName, sparedValue⟩ := spared head List.mem_cons_self
    have behind := ih fun entry member => spared entry (List.mem_cons_of_mem _ member)
    rw [List.flatMap_cons, readRecords_line sparedName sparedValue, behind]
    rfl

-- A carriage return is lost if the reader may take it for the end of the record.
example : readRecords .optionalReturn (line (column "name".toList) (column "plain\r".toList)) =
    some [["name".toList, "plain".toList]] := by cbv

end Report

namespace Summary

open Report

/-- Reading the table of a summary undoes writing it, whatever the name of the accelerator: there
is the record of the header, then the name of each row with the text of its value, in the order of
the rows, and nothing else. The name of the accelerator comes back in the first row. -/
theorem table_reads_back (summary : Summary) :
    let records := ["metric".toList, "value".toList] ::
      summary.rows.map fun row => [row.name.toList, row.value.display]
    readRecords .lineFeed summary.tableText.toList = some records ∧
      records[1]? = some ["accelerator_name".toList, summary.acceleratorName.toList] := by
  intro records
  have spared : ∀ entry ∈ summary.tableLines,
      RecordEnd.lineFeed.Spares entry.1 ∧ RecordEnd.lineFeed.Spares entry.2 :=
    fun _ _ => ⟨RecordEnd.lineFeed_spares _, RecordEnd.lineFeed_spares _⟩
  have undone := readRecords_lines summary.tableLines spared
  rw [← table_eq_lines] at undone
  rw [tableText, String.toList_ofList, undone]
  refine ⟨?_, rfl⟩
  rw [tableLines, List.map_cons, List.map_map]
  rfl

end Summary

end AccelProfile
