import AccelProfile.Json.Decoder
import AccelProfile.Proofs.LaidTexts
import Mathlib.Data.List.Forall2

/-!
# Records read back

A reader reads a value back if it gets that value from what the value was written as. For
records this is put together field by field, along the description of the record: every
member that was written is the value of the field in its place, and no two members have one
name.
-/

namespace AccelProfile

open Scan (ofJson ofMembers)

/-- A reader gets a value from what was written for it, however it meets it. -/
def Decoder.Reads {α : Type} (decode : Decoder α) (json : Json) (value : α) : Prop :=
  ∀ mode, decode mode (ofJson json) = .ok value

namespace Decoder

/-- What a text is read as is what its document is read as, if that is the whole text. -/
theorem readText_eq {α : Type} (decode : Decoder α) {text : List Char} {found : Scan}
    (isDocument : Scan.ofText text = ⟨found, true⟩) :
    decode.readText text = decode .direct found := by
  rw [readText, isDocument]
  cases decode .direct found with
  | error fault => rfl
  | ok result => rfl

theorem Reads.readText {α : Type} {decode : Decoder α} {json : Json} {value : α}
    (reads : decode.Reads json value) {text : List Char} (laid : Json.Laid json text) :
    decode.readText text = .ok value := by
  rw [readText_eq decode (Scan.ofText_of_laid laid), reads .direct]

theorem reads_bool (value : Bool) : bool.Reads (.bool value) value := fun _ => rfl

/-- A number that is not above the limit is read back. -/
theorem reads_upTo {limit value : Nat} (within : value ≤ limit) :
    (upTo limit).Reads (.ofNat value) value := by
  intro mode
  change (if (0 : Int) ≤ value ∧ (value : Int).toNat ≤ limit then _ else _) = _
  rw [if_pos ⟨Int.natCast_nonneg value, by simpa using within⟩, Int.toNat_natCast]

theorem reads_word (value : UInt64) : word.Reads (.ofNat value.toNat) value := by
  intro mode
  have within : value.toNat ≤ maxWord := Nat.le_of_lt_succ value.toNat_lt
  rw [word, reads_upTo within mode, Except.map, UInt64.ofNat_toNat]

theorem reads_halfWord (value : UInt32) : halfWord.Reads (.ofNat value.toNat) value := by
  intro mode
  have within : value.toNat ≤ maxHalfWord := Nat.le_of_lt_succ value.toNat_lt
  rw [halfWord, reads_upTo within mode, Except.map, UInt32.ofNat_toNat]

/-- A finite double is read back. -/
theorem reads_float {value : Float} (finite : value.isFinite = true) :
    float.Reads (.ofFloat value) value := by
  intro mode
  rw [Json.ofFloat, if_pos finite]
  rfl

/-- A value that may be absent is read back, if what is written for it is not null. -/
theorem reads_ofOption {α : Type} {decode : Decoder α} {encode : α → Json}
    (reads : ∀ value, decode.Reads (encode value) value)
    (nonnull : ∀ value, encode value ≠ .null) (value : Option α) :
    (optional decode).Reads (.ofOption encode value) value := by
  intro mode
  cases value with
  | none => rfl
  | some value =>
    have found := reads value mode
    have isValue := nonnull value
    rw [Json.ofOption]
    cases written : encode value with
    | null => exact absurd written isValue
    | _ =>
      rw [written] at found
      simp only [ofJson] at found ⊢
      simp only [optional, found]
      rfl

/-- A value of a closed class is found by its name. -/
theorem named_name {α : Type} {all : List α} {name : α → String}
    (distinct : ∀ value ∈ all, ∀ other ∈ all, name value = name other → value = other)
    {value : α} (member : value ∈ all) : named all name (name value) = .ok value := by
  have found : all.find? (fun other => name other = name value) = some value := by
    cases first : all.find? fun other => name other = name value with
    | none => exact absurd (List.find?_eq_none.1 first value member) (by simp)
    | some other =>
      have same : name other = name value := by simpa using List.find?_some first
      rw [distinct other (List.mem_of_find?_eq_some first) value member same]
  rw [named, found]

/-- A value of a closed class is read back from its name. -/
theorem reads_choice {α : Type} {all : List α} {name : α → String}
    (distinct : ∀ value ∈ all, ∀ other ∈ all, name value = name other → value = other)
    {value : α} (member : value ∈ all) : (choice all name).Reads (.str (name value)) value :=
  fun _ => named_name distinct member

end Decoder

namespace Fields

variable {α β : Type}

/-- A member has the name of a field and a value that can stand there. -/
def Fits (field : Field) (member : String × Json) : Prop :=
  field.name = member.1 ∧ ∀ mode, field.check mode (ofJson member.2) = .ok ()

/-- The fields of a record read a value back from the members that were written for it. -/
structure Reads (fields : Fields α) (members : List (String × Json)) (value : α) : Prop where
  /-- The members stand in the order of the fields. -/
  fit : List.Forall₂ Fits fields.known members
  /-- The record is built from any look-up that finds the members. -/
  build : ∀ mode find,
    (∀ member ∈ members, find member.1 = some (ofJson member.2)) →
      fields.build mode find = .ok value

/-- What a reader reads back can stand in a field of its own. -/
theorem check_reads {decode : Decoder α} {json : Json} {value : α}
    (reads : decode.Reads json value) (mode : Mode) :
    (decode mode (ofJson json)).map (fun _ => ()) = .ok () := by
  rw [reads mode]
  rfl

theorem reads_required (name : String) {decode : Decoder α} {json : Json} {value : α}
    (reads : decode.Reads json value) : (required name decode).Reads [(name, json)] value where
  fit := .cons ⟨rfl, check_reads reads⟩ .nil
  build := by
    intro mode find finds
    have found : find name = some (ofJson json) := finds (name, json) (by simp)
    simp only [required, found, reads mode]

theorem reads_optional (name : String) (absent : α) {decode : Decoder α} {json : Json} {value : α}
    (reads : decode.Reads json value) :
    (optional name decode absent).Reads [(name, json)] value where
  fit := .cons ⟨rfl, check_reads reads⟩ .nil
  build := by
    intro mode find finds
    have found : find name = some (ofJson json) := finds (name, json) (by simp)
    simp only [optional, found, reads mode]

theorem Reads.map {fields : Fields α} {members : List (String × Json)} {value : α}
    (reads : fields.Reads members value) (function : α → β) :
    (function <$> fields).Reads members (function value) where
  fit := reads.fit
  build := by
    intro mode find finds
    change (fields.build mode find).map function = .ok (function value)
    rw [reads.build mode find finds]
    rfl

theorem Reads.seq {functions : Fields (α → β)} {arguments : Fields α}
    {members others : List (String × Json)} {function : α → β} {argument : α}
    (reads : functions.Reads members function) (readsArgument : arguments.Reads others argument) :
    (functions <*> arguments).Reads (members ++ others) (function argument) where
  fit := List.rel_append reads.fit readsArgument.fit
  build := by
    intro mode find finds
    have built := reads.build mode find fun member inside =>
      finds member (List.mem_append_left others inside)
    have builtArgument := readsArgument.build mode find fun member inside =>
      finds member (List.mem_append_right members inside)
    change (functions.build mode find >>= fun function => arguments.build mode find >>=
      fun argument => pure (function argument)) = .ok (function argument)
    rw [built, builtArgument]
    rfl

theorem names_of_fit {known : List Field} {members : List (String × Json)}
    (fit : List.Forall₂ Fits known members) : known.map Field.name = members.map Prod.fst := by
  induction fit with
  | nil => rfl
  | cons fits _ ih => rw [List.map_cons, List.map_cons, fits.1, ih]

/-- Where names are distinct, a member that has the name of a field can stand there. -/
theorem check_of_fit {known : List Field} {members : List (String × Json)}
    (fit : List.Forall₂ Fits known members) (distinct : (members.map Prod.fst).Nodup)
    {field : Field} (isKnown : field ∈ known) {json : Json}
    (member : (field.name, json) ∈ members) (mode : Mode) :
    field.check mode (ofJson json) = .ok () := by
  induction fit with
  | nil => cases isKnown
  | cons fits rest ih =>
    rw [List.map_cons, List.nodup_cons] at distinct
    rcases List.mem_cons.1 isKnown with rfl | knownLater
    · rcases List.mem_cons.1 member with rfl | memberLater
      · exact fits.2 mode
      · rw [← fits.1] at distinct
        exact absurd (List.mem_map_of_mem memberLater) distinct.1
    · rcases List.mem_cons.1 member with rfl | memberLater
      · rw [← names_of_fit rest] at distinct
        exact absurd (List.mem_map_of_mem knownLater) distinct.1
      · exact ih distinct.2 knownLater memberLater

/-- Members with distinct names are passed if each fits the field of its name. -/
theorem checkMembers_ofMembers {mode : Mode} {known : List Field} {seen : List String}
    {members : List (String × Json)} (distinct : (members.map Prod.fst).Nodup)
    (unseen : ∀ key ∈ members.map Prod.fst, key ∉ seen)
    (fits : ∀ field ∈ known, ∀ json, (field.name, json) ∈ members →
      field.check mode (ofJson json) = .ok ()) :
    checkMembers mode known seen (ofMembers members) = .ok () := by
  induction members generalizing seen with
  | nil => rfl
  | cons member others ih =>
    obtain ⟨key, json⟩ := member
    rw [List.map_cons, List.nodup_cons] at distinct
    have fitsOthers : ∀ field ∈ known, ∀ json, (field.name, json) ∈ others →
        field.check mode (ofJson json) = .ok () :=
      fun field isKnown json inside => fits field isKnown json (List.mem_cons_of_mem _ inside)
    rw [ofMembers, checkMembers]
    split
    · exact ih distinct.2 (fun other inside => unseen other (List.mem_cons_of_mem _ inside))
        fitsOthers
    · next field isField =>
      have isName : field.name = key := by simpa using List.find?_some isField
      have fit := fits field (List.mem_of_find?_eq_some isField) json (by simp [isName])
      rw [if_neg (unseen key List.mem_cons_self), fit]
      refine ih distinct.2 ?_ fitsOthers
      intro other inside
      rw [List.mem_cons, not_or]
      refine ⟨?_, unseen other (List.mem_cons_of_mem _ inside)⟩
      rintro rfl
      exact distinct.1 inside

/-- A member with a name of its own is found by it. -/
theorem lookup_ofMembers {members : List (String × Json)} (distinct : (members.map Prod.fst).Nodup)
    {key : String} {json : Json} (inside : (key, json) ∈ members) :
    (ofMembers members).lookup (some key) = some (ofJson json) := by
  induction members with
  | nil => cases inside
  | cons first others ih =>
    obtain ⟨other, value⟩ := first
    rw [List.map_cons, List.nodup_cons] at distinct
    rw [ofMembers, List.lookup_cons]
    rcases List.mem_cons.1 inside with same | later
    · cases same
      simp
    · have differs : (some key == some other) = false := by
        rw [beq_eq_false_iff_ne]
        rintro same
        cases same
        exact distinct.1 (List.mem_map.2 ⟨_, later, rfl⟩)
      rw [differs]
      exact ih distinct.2 later

/-- A record is read back from the object of its members, if its fields have distinct
names. -/
theorem Reads.decoder {fields : Fields α} {members : List (String × Json)} {value : α}
    (reads : fields.Reads members value) (distinct : (fields.known.map Field.name).Nodup) :
    Decoder.Reads fields.decoder (.obj members) value := by
  intro mode
  rw [names_of_fit reads.fit] at distinct
  have checked : checkMembers mode fields.known [] (ofMembers members) = .ok () := by
    apply checkMembers_ofMembers distinct (by simp)
    exact fun field known json member => check_of_fit reads.fit distinct known member mode
  have built := reads.build mode (fun name => (ofMembers members).lookup (some name))
    fun member inside => lookup_ofMembers distinct inside
  change fields.readObject mode (ofMembers members) true = .ok value
  rw [readObject, checked]
  exact built

end Fields

end AccelProfile
