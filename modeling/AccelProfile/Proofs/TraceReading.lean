import AccelProfile.Proofs.TextBytes
import AccelProfile.Trace

/-!
# What is read from a trace

The lines of a trace are those that a reader of lines tells: a line feed ends a line, a
carriage return in front of it is not part of the line, and what stands behind the last line
feed is a line unless it is empty. A trace can be read exactly if every line is text and
every line that is neither blank nor a comment is an event. Then the events are those on the
lines, in their order; otherwise the first line that offends is told, by its number among all
lines.

The reading itself cuts at line feeds alone. The carriage return it leaves at the end of a
line is trimmed, and the empty piece behind the last line feed is blank, so both ways of
cutting come to the same. Cutting at line feeds makes it plain that two traces with a line
feed between them are read one after the other.
-/

namespace AccelProfile.Trace

/-! ## Lines -/

/-- The byte in front of the line feed where lines end with two bytes. -/
def carriageReturn : UInt8 := 13

/-- A line without a carriage return at its end. -/
def withoutReturn (line : List UInt8) : List UInt8 :=
  if line.getLast? = some carriageReturn then line.dropLast else line

/-- The lines of bytes that follow on the beginning of a line. -/
def linesFrom (line : List UInt8) : List UInt8 → List (List UInt8)
  | [] => if line = [] then [] else [line]
  | byte :: rest =>
    if byte = lineFeed then withoutReturn line :: linesFrom [] rest
    else linesFrom (line ++ [byte]) rest

/-- The lines of a trace. -/
def lines (bytes : List UInt8) : List (List UInt8) :=
  linesFrom [] bytes

example : lines "a\r\n\nb\r".toByteArray.data.toList =
    ["a".toByteArray.data.toList, [], "b\r".toByteArray.data.toList] := by decide

/-- A trimmed line that is passed over: it is blank or a comment. -/
def Passed (trimmed : List Char) : Prop :=
  trimmed = [] ∨ trimmed.head? = some '#'

instance (trimmed : List Char) : Decidable (Passed trimmed) :=
  inferInstanceAs (Decidable (_ ∨ _))

/-- A line that a trace may have: it is text, and the text is blank, a comment or an event. -/
def Accepted (line : List UInt8) : Prop :=
  ∃ text, decode? line = some text ∧
    (Passed (Text.trim text.toList) ∨
      ∃ event, Event.ofText (Text.trim text.toList) = .ok event)

/-- What is wrong with a line that a trace may not have: it is not text, or its text is
neither passed over nor an event. -/
def Rejected (line : List UInt8) (fault : LineFault) : Prop :=
  (decode? line = none ∧ fault = .file .notText) ∨
    ∃ text, decode? line = some text ∧ ¬ Passed (Text.trim text.toList) ∧
      ∃ reason, Event.ofText (Text.trim text.toList) = .error reason ∧ fault = .event reason

/-- The event on a line, if there is one. -/
def eventOn? (line : List UInt8) : Option Event := do
  let text ← decode? line
  if Passed (Text.trim text.toList) then none
  else (Event.ofText (Text.trim text.toList)).toOption

/-! ## One line -/

/-- A line that is text is passed over or read as an event. -/
theorem readLine_of_decode? {line : List UInt8} {text : String}
    (decoded : decode? line = some text) :
    readLine line =
      if Passed (Text.trim text.toList) then .ok none
      else match Event.ofText (Text.trim text.toList) with
        | .ok event => .ok (some event)
        | .error reason => .error (.event reason) := by
  simp only [readLine, decoded]
  generalize Text.trim text.toList = trimmed
  cases trimmed with
  | nil => rfl
  | cons first rest =>
    by_cases comment : first = '#'
    · subst comment
      rfl
    · have stands : ¬ Passed (first :: rest) := by simp [Passed, comment]
      rw [if_neg stands]
      split
      · next empty => cases empty
      · next isComment => exact absurd (List.cons.inj isComment).1 comment
      · rfl

/-- A line is read exactly if it is accepted, and then the event on it is found. -/
theorem readLine_eq_ok_iff (line : List UInt8) (found : Option Event) :
    readLine line = .ok found ↔ Accepted line ∧ found = eventOn? line := by
  cases decoded : decode? line with
  | none => simp [readLine, Accepted, decoded]
  | some text =>
    rw [readLine_of_decode? decoded]
    by_cases passed : Passed (Text.trim text.toList)
    · simp [Accepted, eventOn?, decoded, passed, eq_comm]
    · cases read : Event.ofText (Text.trim text.toList) with
      | ok event => simp [Accepted, eventOn?, decoded, passed, read, Except.toOption, eq_comm]
      | error reason => simp [Accepted, decoded, passed, read]

/-- A line is not read exactly if it is rejected, and then it is told what is wrong with it. -/
theorem readLine_eq_error_iff (line : List UInt8) (fault : LineFault) :
    readLine line = .error fault ↔ Rejected line fault := by
  cases decoded : decode? line with
  | none => simp [readLine, Rejected, decoded, eq_comm]
  | some text =>
    rw [readLine_of_decode? decoded]
    by_cases passed : Passed (Text.trim text.toList)
    · simp [Rejected, decoded, passed]
    · cases read : Event.ofText (Text.trim text.toList) with
      | ok event => simp [Rejected, decoded, passed, read]
      | error reason => simp [Rejected, decoded, passed, read, eq_comm]

/-- No line is both accepted and rejected. -/
theorem Rejected.not_accepted {line : List UInt8} {fault : LineFault}
    (rejected : Rejected line fault) : ¬ Accepted line := by
  intro accepted
  have read := (readLine_eq_ok_iff line _).2 ⟨accepted, rfl⟩
  rw [(readLine_eq_error_iff line fault).2 rejected] at read
  cases read

/-- A carriage return at the end of a line makes no difference to what is read. -/
theorem readLine_concat_carriageReturn (line : List UInt8) :
    readLine (line ++ [carriageReturn]) = readLine line := by
  have ascii : '\r'.toNat < 128 := by decide
  have ends := fun text => FileTree.bytesOf_eq_concat_iff ascii text line
  have blank : Text.isBlank '\r' = true := by decide
  cases decoded : decode? line with
  | none =>
    have unread : decode? (line ++ [carriageReturn]) = none := by
      rw [Option.eq_none_iff_forall_ne_some]
      intro text read
      obtain ⟨front, -, isLine⟩ := (ends text).1 ((FileTree.fromUTF8?_eq_some_iff _ _).1 read)
      have decodes : decode? line = some front := (FileTree.fromUTF8?_eq_some_iff _ _).2 isLine
      rw [decoded] at decodes
      cases decodes
    simp [readLine, decoded, unread]
  | some front =>
    have isLine := (FileTree.fromUTF8?_eq_some_iff line front).1 decoded
    have read : decode? (line ++ [carriageReturn]) = some (front.push '\r') :=
      (FileTree.fromUTF8?_eq_some_iff _ _).2 ((ends _).2 ⟨front, rfl, isLine⟩)
    rw [readLine_of_decode? decoded, readLine_of_decode? read, String.toList_push,
      Text.trim_concat_of_isBlank blank]

theorem readLine_withoutReturn (line : List UInt8) :
    readLine (withoutReturn line) = readLine line := by
  rw [withoutReturn]
  split
  · next ends =>
    obtain ⟨front, rfl⟩ := List.getLast?_eq_some_iff.1 ends
    rw [List.dropLast_concat, readLine_concat_carriageReturn]
  · rfl

/-! ## Lines in a row -/

/-- Lines are read exactly if all of them are accepted, and then the events on them come in
their order. -/
theorem readLines_eq_ok_iff (number : Nat) (lines : List (List UInt8)) (events : List Event) :
    readLines number lines = .ok events ↔
      (∀ line ∈ lines, Accepted line) ∧ events = lines.filterMap eventOn? := by
  induction lines generalizing number events with
  | nil => simp [readLines, eq_comm]
  | cons line lines ih =>
    cases read : readLine line with
    | error fault =>
      have refused := ((readLine_eq_error_iff line fault).1 read).not_accepted
      simp [readLines, read, refused]
    | ok found =>
      obtain ⟨accepted, onLine⟩ := (readLine_eq_ok_iff line found).1 read
      have listed : (line :: lines).filterMap eventOn? =
          found.toList ++ lines.filterMap eventOn? := by
        rw [List.filterMap_cons, ← onLine]
        cases found <;> rfl
      simp only [readLines, read, listed, List.forall_mem_cons, accepted, true_and]
      cases later : readLines (number + 1) lines with
      | ok others =>
        obtain ⟨allAccepted, rfl⟩ := (ih (number + 1) others).1 later
        simp only [Except.map, Except.ok.injEq]
        exact ⟨fun same => ⟨allAccepted, same.symm⟩, fun same => same.2.symm⟩
      | error error =>
        have someRefused : ¬ ∀ line ∈ lines, Accepted line := by
          intro allAccepted
          have reads := (ih (number + 1) _).2 ⟨allAccepted, rfl⟩
          rw [later] at reads
          cases reads
        simp [Except.map, someRefused]

/-- Lines are not read exactly if one of them is rejected. The first one is told, by its
number. -/
theorem readLines_eq_error_iff (number : Nat) (lines : List (List UInt8)) (error : TraceError) :
    readLines number lines = .error error ↔
      ∃ before line behind, lines = before ++ line :: behind ∧
        (∀ earlier ∈ before, Accepted earlier) ∧ Rejected line error.fault ∧
        error.line = number + before.length := by
  induction lines generalizing number with
  | nil => simp [readLines]
  | cons line lines ih =>
    cases read : readLine line with
    | error fault =>
      have rejected := (readLine_eq_error_iff line fault).1 read
      simp only [readLines, read, Except.error.injEq]
      constructor
      · rintro rfl
        exact ⟨[], line, lines, rfl, by simp, rejected, rfl⟩
      · rintro ⟨before, offender, behind, cut, accepted, isRejected, isNumber⟩
        cases before with
        | nil =>
          obtain ⟨rfl, -⟩ := List.cons.inj cut
          have same := (readLine_eq_error_iff line _).2 isRejected
          rw [read, Except.error.injEq] at same
          rw [same, show number = error.line from isNumber.symm]
        | cons first others =>
          obtain ⟨rfl, -⟩ := List.cons.inj cut
          exact absurd (accepted line List.mem_cons_self) rejected.not_accepted
    | ok found =>
      obtain ⟨accepted, -⟩ := (readLine_eq_ok_iff line found).1 read
      have onwards : readLines number (line :: lines) = .error error ↔
          readLines (number + 1) lines = .error error := by
        simp only [readLines, read]
        cases readLines (number + 1) lines <;> simp [Except.map]
      rw [onwards, ih]
      constructor
      · rintro ⟨before, offender, behind, rfl, allAccepted, rejected, isNumber⟩
        refine ⟨line :: before, offender, behind, rfl, ?_, rejected, ?_⟩
        · simpa [accepted] using allAccepted
        · simp only [List.length_cons]
          omega
      · rintro ⟨before, offender, behind, cut, allAccepted, rejected, isNumber⟩
        cases before with
        | nil =>
          obtain ⟨rfl, -⟩ := List.cons.inj cut
          exact absurd accepted rejected.not_accepted
        | cons first others =>
          obtain ⟨rfl, rfl⟩ := List.cons.inj cut
          refine ⟨others, offender, behind, rfl, ?_, rejected, ?_⟩
          · exact fun earlier inside => allAccepted earlier (List.mem_cons_of_mem _ inside)
          · simp only [List.length_cons] at isNumber
            omega

/-- Lines are read one part after the other. -/
theorem readLines_append_lines (number : Nat) (front back : List (List UInt8)) :
    readLines number (front ++ back) =
      match readLines number front with
      | .ok events => (readLines (number + front.length) back).map (events ++ ·)
      | .error error => .error error := by
  induction front generalizing number with
  | nil =>
    simp only [List.nil_append, readLines, List.length_nil, Nat.add_zero]
    cases readLines number back <;> rfl
  | cons line front ih =>
    cases read : readLine line with
    | error fault => simp only [List.cons_append, readLines, read]
    | ok found =>
      have later : number + (front.length + 1) = number + 1 + front.length := by omega
      simp only [List.cons_append, readLines, read, ih, List.length_cons, later]
      cases readLines (number + 1) front with
      | error error => rfl
      | ok events =>
        cases readLines (number + 1 + front.length) back with
        | error error => rfl
        | ok others => simp [Except.map]

/-- Where the numbers of the lines start makes a difference to the number that is told, and
to nothing else. -/
theorem readLines_add (number offset : Nat) (lines : List (List UInt8)) :
    readLines (number + offset) lines =
      match readLines number lines with
      | .ok events => .ok events
      | .error error => .error { error with line := error.line + offset } := by
  induction lines generalizing number with
  | nil => rfl
  | cons line lines ih =>
    cases read : readLine line with
    | error fault => simp only [readLines, read]
    | ok found =>
      have next : number + offset + 1 = number + 1 + offset := by omega
      simp only [readLines, read, next, ih]
      cases readLines (number + 1) lines <;> rfl

/-- Reading the pieces between line feeds is reading the lines: what a piece has more than a
line is trimmed, and an empty piece behind the last line feed is blank. -/
theorem readLines_pieces (number : Nat) (line rest : List UInt8) (unended : lineFeed ∉ line) :
    readLines number (Text.pieces lineFeed (line ++ rest)) =
      readLines number (linesFrom line rest) := by
  induction rest generalizing number line with
  | nil =>
    rw [List.append_nil, Text.pieces_of_notMem unended, linesFrom]
    split
    · next empty =>
      subst empty
      rfl
    · rfl
  | cons byte rest ih =>
    rw [linesFrom]
    split
    · next ends =>
      subst ends
      have noFeed : lineFeed ∉ ([] : List UInt8) := List.not_mem_nil
      have behind := ih (number + 1) [] noFeed
      rw [List.nil_append] at behind
      rw [Text.pieces_append_mark, Text.pieces_of_notMem unended, List.singleton_append,
        readLines, readLines, readLine_withoutReturn, behind]
    · next goesOn =>
      have noFeed : lineFeed ∉ line ++ [byte] := by simp [unended, Ne.symm goesOn]
      rw [← ih number (line ++ [byte]) noFeed, List.append_assoc, List.singleton_append]

/-- A trace is read line by line. -/
theorem parse_eq_readLines (bytes : List UInt8) : parse bytes = readLines 1 (lines bytes) :=
  readLines_pieces 1 [] bytes List.not_mem_nil

/-- A trace can be read exactly if each of its lines is text and is blank, a comment or an
event, and then the events on its lines are read in their order. Otherwise the first line
that is none of these is told, by its number among all lines.

Of two traces with a line feed between them, the second one is read after the first one, if
that can be read. Its lines are numbered behind those of the first, of which there is one
more than it has line feeds. -/
theorem parse_reads_lines :
    (∀ bytes events, parse bytes = .ok events ↔
      (∀ line ∈ lines bytes, Accepted line) ∧ events = (lines bytes).filterMap eventOn?) ∧
    (∀ bytes error, parse bytes = .error error ↔
      ∃ before line behind, lines bytes = before ++ line :: behind ∧
        (∀ earlier ∈ before, Accepted earlier) ∧ ¬ Accepted line ∧
        Rejected line error.fault ∧ error.line = before.length + 1) ∧
    ∀ front back, parse (front ++ lineFeed :: back) =
      match parse front, parse back with
      | .error error, _ => .error error
      | .ok events, .ok others => .ok (events ++ others)
      | .ok _, .error error =>
        .error { error with line := error.line + (1 + front.count lineFeed) } := by
  refine ⟨?_, ?_, ?_⟩
  · intro bytes events
    rw [parse_eq_readLines, readLines_eq_ok_iff]
  · intro bytes error
    rw [parse_eq_readLines, readLines_eq_error_iff]
    constructor
    · rintro ⟨before, line, behind, cut, accepted, rejected, number⟩
      exact ⟨before, line, behind, cut, accepted, rejected.not_accepted, rejected,
        number.trans (Nat.add_comm _ _)⟩
    · rintro ⟨before, line, behind, cut, accepted, -, rejected, number⟩
      exact ⟨before, line, behind, cut, accepted, rejected, number.trans (Nat.add_comm _ _)⟩
  · intro front back
    have offset : 1 + (front.count lineFeed + 1) = 1 + (1 + front.count lineFeed) := by omega
    rw [parse, Text.pieces_append_mark, readLines_append_lines, Text.length_pieces, offset,
      readLines_add, parse, parse]
    cases readLines 1 (Text.pieces lineFeed front) with
    | error error => rfl
    | ok events =>
      cases readLines 1 (Text.pieces lineFeed back) with
      | ok others => rfl
      | error error => rfl

end AccelProfile.Trace
