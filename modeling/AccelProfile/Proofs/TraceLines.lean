import AccelProfile.Proofs.EventTexts
import AccelProfile.Proofs.OneLineTexts
import AccelProfile.Proofs.TraceReading

/-!
# Traces of written events

The compact text of an event is one line. It starts and ends with a brace, so nothing of it is
trimmed and it is no comment. So lines that hold the texts of events, one each, are read as these
events in their order.
-/

namespace AccelProfile

namespace Trace

/-- The bytes of a line that holds an event. -/
def line (event : Event) : List UInt8 :=
  FileTree.bytesOf event.text

/-- The bytes of a trace that holds events, each on a line of its own. -/
def written (events : List Event) : List UInt8 :=
  events.flatMap fun event => line event ++ [lineFeed]

/-- The same trace without a line feed behind its last line. -/
def joined (events : List Event) : List UInt8 :=
  [lineFeed].intercalate (events.map line)

variable {event : Event}

theorem toList_text (event : Event) : event.text.toList = event.toJson.compact := by
  rw [Event.text, Json.toList_text]

/-- The text of an event does not break its line. -/
theorem lineFeed_notMem_line (event : Event) : lineFeed ∉ line event := by
  intro inside
  have inText := (FileTree.mem_bytesOf_iff (show '\n'.toNat < 128 by decide) event.text).1 inside
  rw [toList_text] at inText
  exact Json.lineFeed_notMem_compact event.toJson inText

/-- A line that holds an event is read as that event. -/
theorem readLine_line (finite : event.Finite) : readLine (line event) = .ok (some event) := by
  have decoded : decode? (line event) = some event.text := FileTree.fromUTF8?_bytesOf event.text
  obtain ⟨front, closed⟩ :=
    Json.compactMembers_ends ((Event.tagName, .str event.kind.name) :: event.members)
  have starts : event.toJson.compact = '{' :: (front ++ ['}']) := by
    rw [Event.toJson, Json.compact, closed]
  have ends : event.toJson.compact = ('{' :: front) ++ ['}'] := starts
  have trimmed : Text.trim event.toJson.compact = event.toJson.compact :=
    Text.trim_eq starts ends (by decide) (by decide)
  have isEvent := Event.ofText_compact finite
  simp only [readLine, decoded, toList_text, trimmed]
  rw [starts] at isEvent ⊢
  split
  · next empty => cases empty
  · next comment => exact absurd (List.cons.inj comment).1 (by decide)
  · rw [isEvent]

/-- Lines that hold events are read as these events, wherever they stand. -/
theorem readLines_map_line {events : List Event} (finite : ∀ event ∈ events, event.Finite)
    (number : Nat) : readLines number (events.map line) = .ok events := by
  induction events generalizing number with
  | nil => rfl
  | cons event events ih =>
    have ofOthers := ih (fun other inside => finite other (List.mem_cons_of_mem _ inside))
      (number + 1)
    rw [List.map_cons, readLines, readLine_line (finite event List.mem_cons_self)]
    simp only [ofOthers]
    rfl

/-- The lines of a trace that holds events, and nothing behind the last one. -/
theorem pieces_written (events : List Event) :
    Text.pieces lineFeed (written events) = events.map line ++ [[]] := by
  induction events with
  | nil => rfl
  | cons event events ih =>
    have ofEvent := Text.pieces_of_notMem (lineFeed_notMem_line event)
    have split : written (event :: events) = line event ++ lineFeed :: written events := by
      simp [written]
    rw [split, Text.pieces_append_mark, ofEvent, ih]
    rfl

theorem pieces_joined {events : List Event} (nonempty : events ≠ []) :
    Text.pieces lineFeed (joined events) = events.map line := by
  induction events with
  | nil => exact absurd rfl nonempty
  | cons event events ih =>
    have ofEvent := Text.pieces_of_notMem (lineFeed_notMem_line event)
    cases events with
    | nil => simpa [joined] using ofEvent
    | cons next others =>
      have ofOthers := ih (List.cons_ne_nil next others)
      have split : joined (event :: next :: others) =
          line event ++ lineFeed :: joined (next :: others) := by
        simp [joined, List.intercalate]
      rw [split, Text.pieces_append_mark, ofEvent, ofOthers]
      rfl

/-- A trace that holds events is read as these events. -/
theorem parse_of_written {events : List Event} (finite : ∀ event ∈ events, event.Finite) :
    parse (written events) = .ok events := by
  have nothing (number : Nat) : readLines number [[]] = .ok [] := rfl
  rw [parse, pieces_written, readLines_append_lines, readLines_map_line finite]
  simp only [nothing, Except.map, List.append_nil]

/-- A line feed behind the last line makes no difference. -/
theorem parse_of_joined {events : List Event} (finite : ∀ event ∈ events, event.Finite) :
    parse (joined events) = .ok events := by
  rcases List.eq_nil_or_concat events with rfl | ⟨_, _, isConcat⟩
  · rfl
  · have nonempty : events ≠ [] := by simp [isConcat]
    rw [parse, pieces_joined nonempty, readLines_map_line finite]

end Trace

end AccelProfile
