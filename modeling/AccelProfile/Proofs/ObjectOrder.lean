import AccelProfile.Proofs.ConfigTexts
import AccelProfile.Proofs.FiniteEvents
import AccelProfile.Proofs.MemberOrder
import AccelProfile.Proofs.TraceReading

/-!
# Objects in any order

Events and configurations are written as objects. Which event or configuration is read does not
depend on the order in which the members of its object are written, the tag of an event among them,
nor on further members that are no fields of it.

The value of such a member has to be one that can be read. On a line of a trace it is read together
with the event around it, so it may be nested one level less than a document of its own.
-/

namespace AccelProfile

open Scan (HoldsMembers Insertable objectText)

/-- What is read from a text is read from its document, which is the whole text. -/
theorem Decoder.exists_document {α : Type} {decode : Decoder α} {text : List Char} {value : α}
    (isRead : decode.readText text = .ok value) : ∃ found, Scan.ofText text = ⟨found, true⟩ := by
  obtain ⟨⟨root, complete⟩, isDocument⟩ : ∃ document, Scan.ofText text = document := ⟨_, rfl⟩
  cases complete with
  | true => exact ⟨root, isDocument⟩
  | false =>
    rw [Decoder.readText, isDocument] at isRead
    obtain ⟨_, -, isRead⟩ := ok_of_bind isRead
    cases isRead

/-! ## Events -/

namespace Event

open Scan (ReadableMembers)
open Fields

/-- The names of the fields of an event. -/
def fieldNames (event : Event) : List String :=
  event.members.map Prod.fst

section

variable {members others : List (Option String × Scan)} {event : Event}

theorem fields_rearranged {fields : Fields Event} (isLocal : fields.Local)
    (named : fields.Gives fun event => event.fieldNames = fields.known.map Field.name)
    (readable : ReadableMembers members)
    (isEvent : fields.decoder .buffered (.obj members true) = .ok event)
    (moved : Rearranged event.fieldNames members others) :
    fields.decoder .buffered (.obj others true) = .ok event := by
  rw [named.decoder .buffered (.obj members true) event readable isEvent] at moved
  exact isLocal.decoder_rearranged moved isEvent

/-- The data of an event of any kind may come in any order. -/
theorem data_rearranged {kind : EventKind} (readable : ReadableMembers members)
    (isEvent : kind.decoder .buffered (.obj members true) = .ok event)
    (moved : Rearranged event.fieldNames members others) :
    kind.decoder .buffered (.obj others true) = .ok event := by
  cases kind
  case noStall | cycleStart =>
    cases isEvent
    rfl
  all_goals
    refine fields_rearranged ?_ ?_ readable isEvent moved
    · apply_rules [Local.seq, Local.map, local_required, local_optional]
  -- the names of the members that an event is written with are those of the fields it is read from
  case dependency | stall | memoryRead | memoryWrite | portContention | fuContention | power |
      area =>
    exact (gives_any _).map fun _ _ => rfl
  case parallelism | cycleEnd | busWidths | fuInstances =>
    exact ((gives_any _).map fun _ _ _ _ => rfl).seq (gives_any _)
  case fuBusy =>
    exact ((gives_any _).map fun _ _ _ _ _ _ => rfl).seq (gives_any _) |>.seq (gives_any _)
  case commit =>
    exact ((gives_any _).map fun _ _ _ _ _ _ _ _ => rfl).seq (gives_any _)
      |>.seq (gives_any _) |>.seq (gives_any _)

end

open Scan (Inserted ofJson)

/-- The value of an inserted member can be set aside when the tag is looked for. -/
theorem setAside_of_inserted {names : List String} {member : Option String × Scan}
    (inserted : Inserted (tagName :: names) (nestingLimit - 1) member) :
    Tagged.SetAside tagName member := by
  obtain ⟨name, json, rfl, unknown, shallow⟩ := inserted
  refine ⟨name, rfl, List.ne_of_not_mem_cons unknown, ?_⟩
  rw [Tagged.isReadable, Scan.toJson?_ofJson shallow]
  rfl

/-- The members of the object of an event may come in any order, the tag among them, and with
further ones inserted. -/
theorem decoder_rearranged {members inserted others : List (Option String × Scan)} {event : Event}
    (readable : Scan.Readable (.obj members true))
    (isEvent : Event.decoder .direct (.obj members true) = .ok event)
    (permuted : others.Perm (members ++ inserted))
    (areInserted : ∀ member ∈ inserted,
      Inserted (tagName :: event.fieldNames) (nestingLimit - 1) member) :
    Event.decoder .direct (.obj others true) = .ok event := by
  obtain ⟨⟨kind, content⟩, isSplit, isData⟩ := ok_of_bind isEvent
  obtain ⟨kept, moved, rfl, isMoved, isSplitMoved⟩ := Tagged.split_rearranged isSplit permuted
    fun member inside => setAside_of_inserted (areInserted member inside)
  have readableKept : Scan.Readable (.obj kept true) := Tagged.readable_of_split readable isSplit
  have rearranged : Rearranged event.fieldNames kept moved :=
    Scan.rearranged_of_inserted (List.subset_cons_self _ _) isMoved areInserted
  change (Tagged.split tagName _ (.obj others true) >>= _) = _
  rw [isSplitMoved]
  exact data_rearranged readableKept isData rearranged

/-- An event is read from an object with its members in any order and further ones inserted. -/
theorem ofText_rearranged {text other : List Char} {texts extras others : List (List Char)}
    {event : Event} (isEvent : Event.ofText text = .ok event) (holds : HoldsMembers text texts)
    (holdsOthers : HoldsMembers other others) (permuted : others.Perm (texts ++ extras))
    (insertable : ∀ extra ∈ extras,
      Insertable (tagName :: event.fieldNames) (nestingLimit - 1) extra) :
    Event.ofText other = .ok event := by
  obtain ⟨members, inserted, moved, isDocument, isOther, isMoved, areInserted⟩ :=
    holds.rearranged holdsOthers permuted insertable
  have readable := Scan.readable_ofText text
  rw [isDocument] at readable
  rw [Event.ofText, Decoder.readText_eq _ isDocument] at isEvent
  rw [Event.ofText, Decoder.readText_eq _ isOther]
  exact decoder_rearranged readable isEvent isMoved areInserted

end Event

/-! ## Lines -/

/-- The pieces of parts with marks between them are the pieces of all parts. -/
theorem Text.pieces_intercalate {α : Type} [DecidableEq α] (mark : α) {parts : List (List α)}
    (some : parts ≠ []) : pieces mark ([mark].intercalate parts) = parts.flatMap (pieces mark) := by
  induction parts with
  | nil => exact absurd rfl some
  | cons part others ih =>
    cases others with
    | nil => rw [List.intercalate_singleton, List.flatMap_singleton]
    | cons other others =>
      rw [List.intercalate_cons_cons, List.append_assoc, List.singleton_append, pieces_append_mark,
        ih (List.cons_ne_nil _ _)]
      rfl

namespace Trace

/-- A line that holds an object is not passed over. -/
theorem not_passed_of_holdsMembers {trimmed : List Char} {texts : List (List Char)}
    (holds : HoldsMembers trimmed texts) : ¬ Passed trimmed := by
  obtain ⟨before, gap, behind, spaced, members, rfl, blankBefore, -⟩ := holds
  cases before with
  | nil => simp [Passed, objectText]
  | cons first before =>
    have blank := blankBefore first List.mem_cons_self
    have noComment : first ≠ '#' := by
      rintro rfl
      revert blank
      decide
    simp [Passed, noComment]

/-- An event on a line that is not passed over is read from the trimmed line. -/
theorem readLine_event_iff {line : List UInt8} {text : String} (decoded : decode? line = some text)
    {event : Event} :
    readLine line = .ok (some event) ↔
      ¬ Passed (Text.trim text.toList) ∧ Event.ofText (Text.trim text.toList) = .ok event := by
  rw [readLine_of_decode? decoded]
  by_cases passed : Passed (Text.trim text.toList)
  · simp [passed]
  · cases Event.ofText (Text.trim text.toList) with
    | error fault => simp [passed]
    | ok found => simp [passed]

/-- A line holds an object whose members are written by some texts. -/
def LineHolds (line : List UInt8) (texts : List (List Char)) : Prop :=
  ∃ text, decode? line = some text ∧ HoldsMembers (Text.trim text.toList) texts

/-- An event is read from its line with its members in any order and further ones inserted. -/
theorem readLine_rearranged {line other : List UInt8} {texts extras others : List (List Char)}
    {event : Event} (isEvent : readLine line = .ok (some event)) (holds : LineHolds line texts)
    (holdsOthers : LineHolds other others) (permuted : others.Perm (texts ++ extras))
    (insertable : ∀ extra ∈ extras,
      Insertable (Event.tagName :: event.fieldNames) (nestingLimit - 1) extra) :
    readLine other = .ok (some event) := by
  obtain ⟨text, decoded, holds⟩ := holds
  obtain ⟨otherText, otherDecoded, holdsOthers⟩ := holdsOthers
  obtain ⟨-, isEvent⟩ := (readLine_event_iff decoded).1 isEvent
  exact (readLine_event_iff otherDecoded).2 ⟨not_passed_of_holdsMembers holdsOthers,
    Event.ofText_rearranged isEvent holds holdsOthers permuted insertable⟩

/-- A trace is read alike with another line that reads like the one in its place. -/
theorem parse_replace {line other : List UInt8} (same : readLine line = readLine other)
    (oneLine : lineFeed ∉ line) (otherLine : lineFeed ∉ other) (before behind : List (List UInt8)) :
    parse ([lineFeed].intercalate (before ++ line :: behind)) =
      parse ([lineFeed].intercalate (before ++ other :: behind)) := by
  have cut {middle : List UInt8} (noFeed : lineFeed ∉ middle) :
      Text.pieces lineFeed ([lineFeed].intercalate (before ++ middle :: behind)) =
        before.flatMap (Text.pieces lineFeed) ++
          middle :: behind.flatMap (Text.pieces lineFeed) := by
    rw [Text.pieces_intercalate lineFeed (by simp), List.flatMap_append, List.flatMap_cons,
      Text.pieces_of_notMem noFeed, List.singleton_append]
  simp only [parse, cut oneLine, cut otherLine, readLines_append_lines, readLines, same]

end Trace

/-! ## Configurations -/

namespace Config

/-- The names of the fields of a configuration. -/
def fieldNames : List String :=
  fields.known.map Field.name

/-- A configuration is read from an object with its members in any order and further ones
inserted. -/
theorem ofText_rearranged {text other : String} {texts extras others : List (List Char)}
    {config : Config} (isConfig : ofText text = .ok config)
    (holds : HoldsMembers text.toList texts) (holdsOthers : HoldsMembers other.toList others)
    (permuted : others.Perm (texts ++ extras))
    (insertable : ∀ extra ∈ extras, Insertable fieldNames nestingLimit extra) :
    ofText other = .ok config := by
  obtain ⟨members, inserted, moved, isDocument, isOther, isMoved, areInserted⟩ :=
    holds.rearranged holdsOthers permuted insertable
  obtain ⟨found, isFound, validated⟩ := (ofText_eq_ok_iff text config).1 isConfig
  refine (ofText_eq_ok_iff other config).2 ⟨found, ?_, validated⟩
  rw [Decoder.readText_eq _ isDocument] at isFound
  rw [Decoder.readText_eq _ isOther]
  have isLocal : fields.Local := by
    apply_rules [Fields.Local.seq, Fields.Local.map, Fields.local_optional]
  exact isLocal.decoder_rearranged
    (Scan.rearranged_of_inserted (List.Subset.refl _) isMoved areInserted) isFound

end Config

/-! ## Written objects -/

namespace Json

/-- The text of a member as it is written without blank space. -/
def memberText (member : String × Json) : List Char :=
  quoted member.1 ++ ':' :: member.2.compact

theorem compactMembers_eq (members : List (String × Json)) :
    compactMembers members = Scan.joined (members.map memberText) ++ ['}'] := by
  induction members with
  | nil => rfl
  | cons member others ih =>
    obtain ⟨key, value⟩ := member
    cases others with
    | nil => simp [compactMembers, memberText, Scan.joined_singleton]
    | cons other others =>
      have first : memberText (key, value) = quoted key ++ ':' :: value.compact := rfl
      rw [compactMembers, ih, List.map_cons, List.map_cons, List.map_cons, Scan.joined_cons_cons,
        first]
      simp only [List.append_assoc, List.cons_append]

theorem compact_obj (members : List (String × Json)) :
    (Json.obj members).compact = objectText [] (members.map memberText) := by
  rw [compact, compactMembers_eq]
  rfl

end Json

open Json (memberText)

namespace Scan

variable {key : String} {json : Json}

theorem spellsWithin_compact (readable : json.Readable) :
    SpellsWithin json.compact (ofJson json) :=
  (spellsWithin_iff _ _).2 (ofText_of_laid (Json.laid_compact readable))

theorem memberText_eq (key : String) (json : Json) :
    memberText (key, json) =
      [] ++ '"' :: ((key.toList.flatMap Json.escape ++ ['"']) ++ ([] ++ ':' :: json.compact)) := by
  simp [memberText, Json.quoted]

theorem writesMember_memberText (readable : json.Readable) :
    WritesMember (memberText (key, json)) (some key, ofJson json) := by
  rw [memberText_eq]
  exact .intro Json.blank_nil Json.blank_nil (string_quoted key []) (spellsWithin_compact readable)

/-- The members of an object write themselves. -/
theorem forall₂_writesMember {members : List (String × Json)}
    (readable : Json.ReadableMembers members) :
    List.Forall₂ WritesMember (members.map memberText) (ofMembers members) := by
  induction members with
  | nil => exact .nil
  | cons member others ih => exact .cons (writesMember_memberText readable.1) (ih readable.2)

/-- A written object holds the texts of its members. -/
theorem holdsMembers_compact {members : List (String × Json)}
    (readable : Json.ReadableMembers members) :
    HoldsMembers (Json.obj members).compact (members.map memberText) := by
  refine ⟨[], [], [], _, _, ?_, Json.blank_nil, Json.blank_nil, Json.blank_nil,
    List.forall₂_same.2 fun text _ => .refl text, forall₂_writesMember readable⟩
  rw [Json.compact_obj, List.nil_append, List.append_nil]

theorem insertable_memberText (readable : json.Readable) {names : List String}
    (unknown : key ∉ names) {limit : Nat} (shallow : json.depth ≤ limit)
    (within : limit ≤ nestingLimit) : Insertable names limit (memberText (key, json)) := by
  rw [memberText_eq]
  exact .intro Json.blank_nil Json.blank_nil (string_quoted key []) unknown
    (Json.parse_compact readable (Nat.le_trans shallow within)) shallow

end Scan

namespace Trace

/-- A line that holds an object as it is written. -/
def objectLine (members : List (String × Json)) : List UInt8 :=
  FileTree.bytesOf ((Json.obj members).text false)

variable {members : List (String × Json)}

theorem exists_decode?_objectLine (members : List (String × Json)) :
    ∃ text, decode? (objectLine members) = some text ∧
      Text.trim text.toList = (Json.obj members).compact := by
  refine ⟨_, FileTree.fromUTF8?_bytesOf _, ?_⟩
  have ends : (Json.obj members).compact =
      ('{' :: Scan.joined (members.map memberText)) ++ ['}'] := by
    rw [Json.compact, Json.compactMembers_eq, List.cons_append]
  rw [Json.toList_text]
  exact Text.trim_eq ends ends (by decide) (by decide)

theorem lineHolds_objectLine (readable : Json.ReadableMembers members) :
    LineHolds (objectLine members) (members.map memberText) := by
  obtain ⟨text, decoded, trimmed⟩ := exists_decode?_objectLine members
  exact ⟨text, decoded, trimmed ▸ Scan.holdsMembers_compact readable⟩

/-- A written object is read from its members. -/
theorem readLine_objectLine (readable : Json.ReadableMembers members) :
    readLine (objectLine members) =
      ((Event.decoder .direct (Scan.ofJson (.obj members))).map some).mapError .event := by
  have laid : Json.Laid (.obj members) (Json.obj members).compact := Json.laid_compact readable
  obtain ⟨text, decoded, trimmed⟩ := exists_decode?_objectLine members
  obtain ⟨_, sameDecoded, holds⟩ := lineHolds_objectLine readable
  cases decoded.symm.trans sameDecoded
  rw [readLine_of_decode? decoded, if_neg (not_passed_of_holdsMembers holds), trimmed,
    Event.ofText, Decoder.readText_eq _ (Scan.ofText_of_laid laid)]
  cases Event.decoder .direct (Scan.ofJson (.obj members)) with
  | error reason => rfl
  | ok event => rfl

end Trace

/-! ## Deep values -/

namespace Json

/-- An empty array inside a number of other arrays. -/
def nested : Nat → Json
  | 0 => .arr []
  | around + 1 => .arr [nested around]

theorem readable_nested (around : Nat) : (nested around).Readable := by
  induction around with
  | zero => trivial
  | succ around ih => exact ⟨ih, trivial⟩

theorem depth_nested (around : Nat) : (nested around).depth = around + 1 := by
  induction around with
  | zero => rfl
  | succ around ih => simp [nested, depth, depthItems, ih]

/-- A member that is no field of any event or configuration. -/
def deepMember (around : Nat) : String × Json :=
  ("x", nested around)

/-- The tag of an event that has no fields. -/
def bareTag : String × Json :=
  (Event.tagName, .str EventKind.noStall.name)

end Json

open Json (deepMember bareTag)

theorem Scan.insertable_deepMember {names : List String} (unknown : "x" ∉ names)
    {around limit : Nat} (shallow : around + 1 ≤ limit) (within : limit ≤ nestingLimit) :
    Insertable names limit (memberText (deepMember around)) :=
  insertable_memberText (Json.readable_nested around) unknown
    (Nat.le_trans (Nat.le_of_eq (Json.depth_nested around)) shallow) within

namespace Trace

theorem readLine_bareTag : readLine (objectLine [bareTag]) = .ok (some .noStall) := by
  have readable : Json.ReadableMembers [bareTag] := ⟨trivial, trivial⟩
  rw [readLine_objectLine readable]
  rfl

theorem lineHolds_bareTag : LineHolds (objectLine [bareTag]) [memberText bareTag] :=
  have readable : Json.ReadableMembers [bareTag] := ⟨trivial, trivial⟩
  lineHolds_objectLine readable

end Trace

/-! ## Any order -/

/-- The members of the object of an event can be put in any order on its line, the tag anywhere
among them, and members that are neither the tag nor a field of the event can be inserted: the line
is read as the same event, and so is the trace around it. An inserted value has to be readable by
itself and to leave one level of nesting for the event around it. Every event that is written as an
object has such members.

The same holds of a configuration, where an inserted value only has to be readable by itself. -/
theorem objects_read_alike_in_any_order :
    (∀ line event, Trace.readLine line = .ok (some event) →
      (∀ text, Trace.decode? line = some text → Scan.StartsObject (Text.trim text.toList) →
        ∃ texts, Trace.LineHolds line texts) ∧
      ∀ texts extras others other, Trace.LineHolds line texts → others.Perm (texts ++ extras) →
        (∀ extra ∈ extras,
          Insertable (Event.tagName :: event.fieldNames) (nestingLimit - 1) extra) →
        Trace.LineHolds other others →
        Trace.readLine other = .ok (some event) ∧
        (Trace.lineFeed ∉ line → Trace.lineFeed ∉ other → ∀ before behind,
          Trace.parse ([Trace.lineFeed].intercalate (before ++ other :: behind)) =
            Trace.parse ([Trace.lineFeed].intercalate (before ++ line :: behind)))) ∧
    ∀ text config, Config.ofText text = .ok config →
      (Scan.StartsObject text.toList → ∃ texts, HoldsMembers text.toList texts) ∧
      ∀ texts extras others other, HoldsMembers text.toList texts →
        others.Perm (texts ++ extras) →
        (∀ extra ∈ extras, Insertable Config.fieldNames nestingLimit extra) →
        HoldsMembers other.toList others → Config.ofText other = .ok config := by
  refine ⟨fun line event isEvent => ⟨fun text decoded isObject => ?_, ?_⟩,
    fun text config isConfig => ⟨fun isObject => ?_, ?_⟩⟩
  · obtain ⟨-, isText⟩ := (Trace.readLine_event_iff decoded).1 isEvent
    obtain ⟨found, isDocument⟩ := Decoder.exists_document isText
    obtain ⟨texts, holds⟩ := Scan.exists_holdsMembers isDocument isObject
    exact ⟨texts, text, decoded, holds⟩
  · intro texts extras others other holds permuted insertable holdsOthers
    have isOther := Trace.readLine_rearranged isEvent holds holdsOthers permuted insertable
    exact ⟨isOther, fun oneLine otherLine =>
      Trace.parse_replace (isOther.trans isEvent.symm) otherLine oneLine⟩
  · obtain ⟨found, isFound, -⟩ := (Config.ofText_eq_ok_iff text config).1 isConfig
    obtain ⟨root, isDocument⟩ := Decoder.exists_document isFound
    exact Scan.exists_holdsMembers isDocument isObject
  · intro texts extras others other holds permuted insertable holdsOthers
    exact Config.ofText_rearranged isConfig holds holdsOthers permuted insertable

/-- The tag may come behind a value that leaves just one level of nesting for the event, and a
configuration may have a value in it that leaves none. -/
theorem deepest_values_read_past :
    Trace.readLine (Trace.objectLine [deepMember 125, bareTag]) = .ok (some .noStall) ∧
      Config.ofText ((Json.obj [deepMember 126]).text false) = .ok .standard := by
  constructor
  · have readable : Json.ReadableMembers [deepMember 125, bareTag] :=
      ⟨Json.readable_nested 125, trivial, trivial⟩
    have alike := (objects_read_alike_in_any_order.1 _ _ Trace.readLine_bareTag).2
    have insertable : Insertable (Event.tagName :: Event.noStall.fieldNames) (nestingLimit - 1)
        (memberText (deepMember 125)) :=
      Scan.insertable_deepMember (by decide) (by decide) (by decide)
    exact (alike _ [memberText (deepMember 125)] _ _ Trace.lineHolds_bareTag (.swap _ _ _)
      (List.forall_mem_singleton.2 insertable) (Trace.lineHolds_objectLine readable)).1
  · have isStandard : Config.ofText ((Json.obj []).text false) = .ok .standard := rfl
    have readable : Json.ReadableMembers [deepMember 126] := ⟨Json.readable_nested 126, trivial⟩
    have holds {members : List (String × Json)} (readable : Json.ReadableMembers members) :
        HoldsMembers ((Json.obj members).text false).toList (members.map memberText) := by
      rw [Json.toList_text]
      exact Scan.holdsMembers_compact readable
    have insertable : Insertable Config.fieldNames nestingLimit (memberText (deepMember 126)) :=
      Scan.insertable_deepMember (by decide) (by decide) (by decide)
    have alike := (objects_read_alike_in_any_order.2 _ _ isStandard).2
    exact alike _ [memberText (deepMember 126)] _ _ (holds trivial) (.refl _)
      (List.forall_mem_singleton.2 insertable) (holds readable)

/-- A value that is nested as deeply as a document of its own may be can be inserted into a
configuration only: inside an event it is too deep by one. -/
theorem deepest_value_refused_in_event :
    Trace.readLine (Trace.objectLine [bareTag]) = .ok (some .noStall) ∧
    Trace.LineHolds (Trace.objectLine [bareTag]) [memberText bareTag] ∧
    Insertable (Event.tagName :: Event.noStall.fieldNames) nestingLimit
      (memberText (deepMember 126)) ∧
    Trace.LineHolds (Trace.objectLine [bareTag, deepMember 126])
      [memberText bareTag, memberText (deepMember 126)] ∧
    Trace.readLine (Trace.objectLine [bareTag, deepMember 126]) = .error (.event .malformed) := by
  have readable : Json.ReadableMembers [bareTag, deepMember 126] :=
    ⟨trivial, Json.readable_nested 126, trivial⟩
  refine ⟨Trace.readLine_bareTag, Trace.lineHolds_bareTag, Scan.insertable_deepMember (by decide)
    (Nat.le_refl _) (Nat.le_refl _), Trace.lineHolds_objectLine readable, ?_⟩
  have tooDeep : Tagged.isReadable (Scan.ofJson (.nested 126)) = false := by decide +kernel
  have noTag : "x" ≠ Event.tagName := by decide
  rw [Trace.readLine_objectLine readable]
  simp only [Event.decoder, Scan.ofJson, Scan.ofMembers, Tagged.split, Tagged.gather, bareTag,
    deepMember, if_true, if_neg noTag, tooDeep]
  rfl

end AccelProfile
