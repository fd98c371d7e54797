import AccelProfile.Proofs.EventTexts
import AccelProfile.Proofs.FiniteNumbers
import AccelProfile.Trace

/-!
# Events that are read are finite

A record gets its doubles from numbers of the text and from the values of fields that are not
there. Both are finite, and nothing that is done with them on the way to an event changes
them. So whatever a trace holds, the events that are read from it are finite, and can be
written again without loss.
-/

namespace AccelProfile

/-- Whatever a reader gets has a property, as long as the numbers that it meets read back. -/
def Decoder.Gives {α : Type} (decode : Decoder α) (property : α → Prop) : Prop :=
  ∀ mode found value, found.Readable → decode mode found = .ok value → property value

theorem Decoder.gives_float : float.Gives fun value => value.isFinite = true := by
  intro mode found value readable isValue
  cases found with
  | num number =>
    cases isValue
    exact Number.isFinite_toFloat readable
  | _ => cases isValue

namespace Scan

theorem readable_of_lookup_members {members : List (Option String × Scan)}
    (readable : ReadableMembers members) {key : Option String} {found : Scan}
    (isFound : members.lookup key = some found) : found.Readable := by
  induction members with
  | nil => cases isFound
  | cons member others ih =>
    obtain ⟨other, value⟩ := member
    rw [List.lookup_cons] at isFound
    split at isFound
    · cases isFound
      exact readable.1
    · exact ih readable.2 isFound

theorem readable_of_lookup_items {names : List String} {items : List Scan}
    (readable : ReadableItems items) {name : String} {found : Scan}
    (isFound : (names.zip items).lookup name = some found) : found.Readable := by
  induction items generalizing names with
  | nil => simp at isFound
  | cons item others ih =>
    cases names with
    | nil => simp at isFound
    | cons first names =>
      rw [List.zip_cons_cons, List.lookup_cons] at isFound
      split at isFound
      · cases isFound
        exact readable.1
      · exact ih readable.2 isFound

end Scan

namespace Fields

variable {α β : Type} {property : α → Prop} {result : β → Prop}

/-- Whatever record is built has a property, as long as the numbers that are looked up read
back. -/
def Gives (fields : Fields α) (property : α → Prop) : Prop :=
  ∀ mode find value, (∀ name found, find name = some found → found.Readable) →
    fields.build mode find = .ok value → property value

theorem gives_optional (name : String) {decode : Decoder α} (gives : decode.Gives property)
    {absent : α} (ofAbsent : property absent) : (optional name decode absent).Gives property := by
  intro mode find value readable built
  simp only [optional] at built
  split at built
  · next found isFound => exact gives mode found value (readable name found isFound) built
  · cases built
    exact ofAbsent

/-- Nothing is said of what is built. -/
theorem gives_any (fields : Fields α) : fields.Gives fun _ => True :=
  fun _ _ _ _ _ => trivial

theorem Gives.map {fields : Fields α} (gives : fields.Gives property) {function : α → β}
    (keeps : ∀ value, property value → result (function value)) :
    (function <$> fields).Gives result := by
  intro mode find value readable built
  obtain ⟨argument, isBuilt, rfl⟩ := ok_of_map built
  exact keeps argument (gives mode find argument readable isBuilt)

theorem Gives.seq {functions : Fields (α → β)} {arguments : Fields α}
    (gives : functions.Gives fun function => ∀ value, property value → result (function value))
    (givesArgument : arguments.Gives property) : (functions <*> arguments).Gives result := by
  intro mode find value readable built
  obtain ⟨function, isFunction, built⟩ := ok_of_bind built
  obtain ⟨argument, isArgument, built⟩ := ok_of_bind built
  cases built
  exact gives mode find function readable isFunction argument
    (givesArgument mode find argument readable isArgument)

/-- A record is read by building it from what was found. -/
theorem Gives.decoder {fields : Fields α} (gives : fields.Gives property) :
    Decoder.Gives fields.decoder property := by
  intro mode found value readable isValue
  cases found with
  | obj members closed =>
    obtain ⟨-, -, built⟩ := ok_of_bind isValue
    cases closed with
    | false => cases built
    | true =>
      exact gives mode _ value
        (fun name found isFound => Scan.readable_of_lookup_members readable isFound) built
  | arr items closed =>
    obtain ⟨-, -, built⟩ := ok_of_bind isValue
    cases closed with
    | false => cases built
    | true =>
      rw [if_neg (by decide)] at built
      split at built
      · cases mode <;> cases built
      · split at built
        · cases built
        · exact gives mode _ value
            (fun name found isFound => Scan.readable_of_lookup_items readable isFound) built
  | _ => cases isValue

end Fields

namespace Tagged

variable {κ : Type} {tagName : String} {kind : String → Except ReadError κ}

/-- What is set aside behind the tag still reads back. -/
theorem readable_of_gather {tag result : Option κ} {members content : List (Option String × Scan)}
    (readable : Scan.ReadableMembers members)
    (gathered : gather tagName kind tag members = .ok (result, content)) :
    Scan.ReadableMembers content := by
  induction members generalizing tag content with
  | nil =>
    cases gathered
    trivial
  | cons member others ih =>
    obtain ⟨key, value⟩ := member
    cases key with
    | none => cases gathered
    | some key =>
      simp only [gather] at gathered
      split at gathered
      · cases tag with
        | some _ => cases gathered
        | none =>
          obtain ⟨found, -, gathered⟩ := ok_of_bind gathered
          exact ih readable.2 gathered
      · split at gathered
        · obtain ⟨⟨found, rest⟩, isRest, gathered⟩ := ok_of_bind gathered
          cases gathered
          exact ⟨readable.1, ih readable.2 isRest⟩
        · cases gathered

theorem readable_of_split {found content : Scan} {tag : κ} (readable : found.Readable)
    (taken : split tagName kind found = .ok (tag, content)) : content.Readable := by
  cases found with
  | obj members closed =>
    obtain ⟨⟨result, rest⟩, gathered, taken⟩ := ok_of_bind taken
    have ofRest : Scan.ReadableMembers rest := readable_of_gather readable gathered
    cases closed with
    | false => cases taken
    | true =>
      cases result with
      | none => cases taken
      | some result =>
        cases taken
        exact ofRest
  | arr items closed =>
    cases items with
    | nil => cases closed <;> cases taken
    | cons first others =>
      obtain ⟨result, -, taken⟩ := ok_of_bind taken
      split at taken
      · cases taken
        exact readable.2
      · cases taken
  | _ => cases taken

end Tagged

/-- A figure that is not there is zero, and zero is finite. -/
theorem gives_figure (name : String) :
    (Fields.optional name Decoder.float 0).Gives fun value => value.isFinite = true :=
  Fields.gives_optional name Decoder.gives_float (by decide +kernel)

theorem PowerInputs.gives_fields : PowerInputs.fields.Gives PowerInputs.Finite :=
  (gives_figure "fu_leakage").map (fun _ fuLeakage _ fuDynamic _ regLeakage _ regDynamic
      _ spmLeakage _ spmRead _ spmWrite _ cacheLeakage _ cacheRead _ cacheWrite =>
      ⟨fuLeakage, fuDynamic, regLeakage, regDynamic, spmLeakage, spmRead, spmWrite, cacheLeakage,
        cacheRead, cacheWrite⟩)
    |>.seq (gives_figure "fu_dynamic")
    |>.seq (gives_figure "reg_leakage")
    |>.seq (gives_figure "reg_dynamic")
    |>.seq (gives_figure "spm_leakage")
    |>.seq (gives_figure "spm_read_dynamic")
    |>.seq (gives_figure "spm_write_dynamic")
    |>.seq (gives_figure "cache_leakage")
    |>.seq (gives_figure "cache_read_dynamic")
    |>.seq (gives_figure "cache_write_dynamic")

theorem AreaInputs.gives_fields : AreaInputs.fields.Gives AreaInputs.Finite :=
  (gives_figure "fu").map (fun _ fu _ reg _ spm _ cache => ⟨fu, reg, spm, cache⟩)
    |>.seq (gives_figure "reg")
    |>.seq (gives_figure "spm")
    |>.seq (gives_figure "cache")

namespace Event

/-- The data of an event of any kind are read as an event whose doubles are finite. -/
theorem gives_data (kind : EventKind) : kind.decoder.Gives Event.Finite := by
  cases kind with
  | power =>
    have gives : (Event.power <$> PowerInputs.fields).Gives Event.Finite :=
      PowerInputs.gives_fields.map fun _ finite => finite
    exact gives.decoder
  | area =>
    have gives : (Event.area <$> AreaInputs.fields).Gives Event.Finite :=
      AreaInputs.gives_fields.map fun _ finite => finite
    exact gives.decoder
  | noStall | cycleStart =>
    intro mode found value _ isValue
    obtain ⟨-, -, rfl⟩ := ok_of_map isValue
    trivial
  -- the events of all other kinds have no doubles, whatever their fields hold
  | dependency | stall | memoryRead | memoryWrite | portContention | fuContention =>
    exact ((Fields.gives_any _).map fun _ _ => trivial).decoder
  | parallelism | cycleEnd | busWidths | fuInstances =>
    exact (((Fields.gives_any _).map fun _ _ _ _ => trivial).seq (Fields.gives_any _)).decoder
  | fuBusy =>
    exact (((Fields.gives_any _).map fun _ _ _ _ _ _ => trivial).seq (Fields.gives_any _)
      |>.seq (Fields.gives_any _)).decoder
  | commit =>
    exact (((Fields.gives_any _).map fun _ _ _ _ _ _ _ _ => trivial).seq (Fields.gives_any _)
      |>.seq (Fields.gives_any _) |>.seq (Fields.gives_any _)).decoder

theorem gives_decoder : Event.decoder.Gives Event.Finite := by
  intro mode found event readable isEvent
  obtain ⟨⟨kind, content⟩, taken, isEvent⟩ := ok_of_bind isEvent
  exact gives_data kind .buffered content event (Tagged.readable_of_split readable taken) isEvent

/-- An event that a text writes is finite. -/
theorem finite_of_ofText {text : List Char} {event : Event}
    (isEvent : Event.ofText text = .ok event) : event.Finite := by
  obtain ⟨found, isFound, isEvent⟩ := ok_of_bind isEvent
  split at isEvent
  · cases isEvent
    exact gives_decoder .direct _ event (Scan.readable_ofText text) isFound
  · cases isEvent

end Event

namespace Trace

/-- An event on a line is finite. -/
theorem finite_of_readLine {bytes : List UInt8} {event : Event}
    (isEvent : readLine bytes = .ok (some event)) : event.Finite := by
  rw [readLine] at isEvent
  split at isEvent
  · cases isEvent
  · split at isEvent
    · cases isEvent
    · cases isEvent
    · split at isEvent
      · next isText =>
        cases isEvent
        exact Event.finite_of_ofText isText
      · cases isEvent

theorem finite_of_readLines {number : Nat} {lines : List (List UInt8)} {events : List Event}
    (areEvents : readLines number lines = .ok events) : ∀ event ∈ events, event.Finite := by
  induction lines generalizing number events with
  | nil =>
    cases areEvents
    simp
  | cons line lines ih =>
    rw [readLines] at areEvents
    split at areEvents
    · cases areEvents
    · next found isLine =>
      obtain ⟨others, areOthers, rfl⟩ := ok_of_map areEvents
      intro event inside
      rcases List.mem_append.1 inside with first | later
      · rw [Option.mem_toList] at first
        exact finite_of_readLine (first ▸ isLine)
      · exact ih areOthers event later

/-- All events of a trace are finite. -/
theorem finite_of_parse {bytes : List UInt8} {events : List Event}
    (parsed : parse bytes = .ok events) : ∀ event ∈ events, event.Finite :=
  finite_of_readLines parsed

end Trace

end AccelProfile
