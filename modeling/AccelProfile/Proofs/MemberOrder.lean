import AccelProfile.Proofs.MemberTexts
import AccelProfile.Proofs.RecordOrder

/-!
# Members in any order

An object can be written with its members in any order, with blank space around each of them, and
with further members inserted. Whatever the order, the object is read as the same members in that
order, with those among them that were inserted.

A member that is inserted has none of some names, and its value is one that can be read by itself.
How deep such a value may be nested depends on what is around it.
-/

namespace AccelProfile

open Json (Blank)

namespace Scan

/-! ## Values that can be read -/

mutual

theorem of_toJson?_eq_some : ∀ {found : Scan} {limit : Nat} {json : Json},
    toJson? limit found = some json → found = ofJson json ∧ json.depth ≤ limit
  | .null, _, _, isJson | .bool _, _, _, isJson | .num _, _, _, isJson | .str _, _, _, isJson => by
    cases isJson
    exact ⟨rfl, Nat.zero_le _⟩
  | .arr _ true, 0, _, isJson | .obj _ true, 0, _, isJson => by cases isJson
  | .arr items true, limit + 1, json, isJson => by
    obtain ⟨values, areItems, rfl⟩ := Option.map_eq_some_iff.1 isJson
    obtain ⟨rfl, shallow⟩ := of_toItems?_eq_some areItems
    exact ⟨rfl, Nat.succ_le_succ shallow⟩
  | .obj members true, limit + 1, json, isJson => by
    obtain ⟨values, areMembers, rfl⟩ := Option.map_eq_some_iff.1 isJson
    obtain ⟨rfl, shallow⟩ := of_toMembers?_eq_some areMembers
    exact ⟨rfl, Nat.succ_le_succ shallow⟩
  | .arr _ false, _, _, isJson | .obj _ false, _, _, isJson | .unreadable, _, _, isJson
  | .broken, _, _, isJson => by cases isJson

theorem of_toItems?_eq_some : ∀ {items : List Scan} {limit : Nat} {values : List Json},
    toItems? limit items = some values →
      items = ofItems values ∧ Json.depthItems values ≤ limit
  | [], _, _, areItems => by
    cases areItems
    exact ⟨rfl, Nat.zero_le _⟩
  | item :: others, limit, values, areItems => by
    obtain ⟨first, isFirst, areItems⟩ := Option.bind_eq_some_iff.1 areItems
    obtain ⟨rest, areRest, isValues⟩ := Option.bind_eq_some_iff.1 areItems
    cases isValues
    obtain ⟨rfl, shallow⟩ := of_toJson?_eq_some isFirst
    obtain ⟨rfl, shallowRest⟩ := of_toItems?_eq_some areRest
    exact ⟨rfl, Nat.max_le.2 ⟨shallow, shallowRest⟩⟩

theorem of_toMembers?_eq_some : ∀ {members : List (Option String × Scan)} {limit : Nat}
    {values : List (String × Json)}, toMembers? limit members = some values →
      members = ofMembers values ∧ Json.depthMembers values ≤ limit
  | [], _, _, areMembers => by
    cases areMembers
    exact ⟨rfl, Nat.zero_le _⟩
  | (none, _) :: _, _, _, areMembers => by cases areMembers
  | (some key, value) :: others, limit, values, areMembers => by
    obtain ⟨first, isFirst, areMembers⟩ := Option.bind_eq_some_iff.1 areMembers
    obtain ⟨rest, areRest, isValues⟩ := Option.bind_eq_some_iff.1 areMembers
    cases isValues
    obtain ⟨rfl, shallow⟩ := of_toJson?_eq_some isFirst
    obtain ⟨rfl, shallowRest⟩ := of_toMembers?_eq_some areRest
    exact ⟨rfl, Nat.max_le.2 ⟨shallow, shallowRest⟩⟩

end

/-- A scan can be read exactly if it is the scan of a value that is not too deep. -/
theorem toJson?_eq_some_iff {found : Scan} {limit : Nat} {json : Json} :
    toJson? limit found = some json ↔ found = ofJson json ∧ json.depth ≤ limit :=
  ⟨of_toJson?_eq_some, fun ⟨isScan, shallow⟩ => isScan ▸ toJson?_ofJson shallow⟩

/-- A text that is parsed as a value spells the scan of it. -/
theorem spellsWithin_of_parse {text : List Char} {json : Json}
    (parsed : Json.parse text = some json) : SpellsWithin text (ofJson json) ∧ json.depth ≤ nestingLimit := by
  obtain ⟨⟨root, complete⟩, isDocument⟩ : ∃ document, ofText text = document := ⟨_, rfl⟩
  rw [Json.parse, isDocument] at parsed
  cases complete with
  | false => cases parsed
  | true =>
    obtain ⟨rfl, shallow⟩ := toJson?_eq_some_iff.1 parsed
    exact ⟨(spellsWithin_iff text _).2 isDocument, shallow⟩

/-! ## Members among others -/

/-- A text that can be put among the members of an object: it writes a member that has none of some
names, and its value is one that is read by itself and is not nested too deeply. -/
inductive Insertable (names : List String) (limit : Nat) : List Char → Prop
  | intro {before key gap value : List Char} {name : String} {json : Json}
      (blankBefore : Blank before) (blankGap : Blank gap)
      (isKey : string (.whole []) key = some (some name, [])) (unknown : name ∉ names)
      (parsed : Json.parse value = some json) (shallow : json.depth ≤ limit) :
      Insertable names limit (before ++ '"' :: (key ++ (gap ++ ':' :: value)))

theorem Insertable.exists_writesMember {names : List String} {limit : Nat} {text : List Char}
    (insertable : Insertable names limit text) :
    ∃ name json, WritesMember text (some name, ofJson json) ∧ name ∉ names ∧
      json.depth ≤ limit := by
  cases insertable with
  | @intro _ _ _ _ name json blankBefore blankGap isKey unknown parsed shallow =>
    exact ⟨name, json, .intro blankBefore blankGap isKey (spellsWithin_of_parse parsed).1, unknown,
      shallow⟩

/-- Parts that each have a text of their own are the parts of all these texts. -/
theorem exists_forall₂ {α β : Type} {writes : α → β → Prop} {property : β → Prop} {texts : List α}
    (each : ∀ text ∈ texts, ∃ part, writes text part ∧ property part) :
    ∃ parts, List.Forall₂ writes texts parts ∧ ∀ part ∈ parts, property part := by
  induction texts with
  | nil => exact ⟨[], .nil, List.forall_mem_nil _⟩
  | cons text others ih =>
    obtain ⟨⟨part, first, hasProperty⟩, each⟩ := List.forall_mem_cons.1 each
    obtain ⟨parts, rest, haveProperty⟩ := ih each
    exact ⟨part :: parts, .cons first rest, List.forall_mem_cons.2 ⟨hasProperty, haveProperty⟩⟩

/-- A member that was inserted: it has none of some names, and its value is not nested too
deeply. -/
def Inserted (names : List String) (limit : Nat) (member : Option String × Scan) : Prop :=
  ∃ name json, member = (some name, ofJson json) ∧ name ∉ names ∧ json.depth ≤ limit

/-- The texts of members in any order, among inserted ones, write these members in that order. -/
theorem exists_rearranged {names : List String} {limit : Nat}
    {texts extras others : List (List Char)} {members : List (Option String × Scan)}
    (written : List.Forall₂ WritesMember texts members)
    (insertable : ∀ extra ∈ extras, Insertable names limit extra)
    (permuted : others.Perm (texts ++ extras)) :
    ∃ inserted moved, List.Forall₂ WritesMember others moved ∧ moved.Perm (members ++ inserted) ∧
      ∀ member ∈ inserted, Inserted names limit member := by
  obtain ⟨inserted, writtenExtras, areInserted⟩ :
      ∃ inserted, List.Forall₂ WritesMember extras inserted ∧
        ∀ member ∈ inserted, Inserted names limit member := by
    refine exists_forall₂ fun extra inside => ?_
    obtain ⟨name, json, writes, unknown, shallow⟩ := (insertable extra inside).exists_writesMember
    exact ⟨_, writes, name, json, rfl, unknown, shallow⟩
  obtain ⟨moved, writtenMoved, isMoved⟩ :=
    List.perm_comp_forall₂ permuted (List.rel_append written writtenExtras)
  exact ⟨inserted, moved, writtenMoved, isMoved, areInserted⟩

/-- Members among inserted ones in any order are rearranged. -/
theorem rearranged_of_inserted {names all : List String} {limit : Nat}
    {members inserted others : List (Option String × Scan)} (within : names ⊆ all)
    (permuted : others.Perm (members ++ inserted))
    (areInserted : ∀ member ∈ inserted, Inserted all limit member) :
    Rearranged names members others := by
  refine ⟨inserted, permuted, fun member inside => ?_⟩
  obtain ⟨name, json, rfl, unknown, -⟩ := areInserted member inside
  exact ⟨name, rfl, fun known => unknown (within known)⟩

/-- A text with blank space around it. -/
inductive Spaced (text : List Char) : List Char → Prop
  | intro {before behind : List Char} (blankBefore : Blank before) (blankBehind : Blank behind) :
      Spaced text (before ++ (text ++ behind))

theorem Spaced.refl (text : List Char) : Spaced text text := by
  have spaced : Spaced text ([] ++ (text ++ [])) := .intro Json.blank_nil Json.blank_nil
  rwa [List.nil_append, List.append_nil] at spaced

/-- Blank space around a member makes no difference. -/
theorem WritesMember.spaced {text other : List Char} {member : Option String × Scan}
    (writes : WritesMember text member) (spaced : Spaced text other) :
    WritesMember other member := by
  obtain ⟨blankBefore, blankBehind⟩ := spaced
  refine .blank_append blankBefore ?_
  obtain ⟨blankKey, blankGap, isKey, blankFront, blankBack, spells⟩ := writes
  simp only [List.append_assoc, List.cons_append]
  exact .intro blankKey blankGap isKey
    (.intro blankFront (Scan.blank_append blankBack blankBehind) spells)

theorem forall₂_spaced {texts spaced : List (List Char)} {members : List (Option String × Scan)}
    (written : List.Forall₂ WritesMember texts members)
    (areSpaced : List.Forall₂ Spaced texts spaced) : List.Forall₂ WritesMember spaced members := by
  induction areSpaced generalizing members with
  | nil =>
    cases written
    exact .nil
  | cons isSpaced _ ih =>
    cases written with
    | cons writes written => exact .cons (writes.spaced isSpaced) (ih written)

/-- A text holds an object whose members are written by some texts, with any blank space around
them and around the object. -/
def HoldsMembers (text : List Char) (texts : List (List Char)) : Prop :=
  ∃ before gap behind spaced members, text = before ++ (objectText gap spaced ++ behind) ∧
    Blank before ∧ Blank gap ∧ Blank behind ∧ List.Forall₂ Spaced texts spaced ∧
    List.Forall₂ WritesMember texts members

/-- The text of an object, with blank space anywhere around it and its members, is read as the
members. -/
theorem ofText_objectText {before gap behind : List Char} {texts spaced : List (List Char)}
    {members : List (Option String × Scan)} (blankBefore : Blank before) (blank : Blank gap)
    (blankBehind : Blank behind) (areSpaced : List.Forall₂ Spaced texts spaced)
    (written : List.Forall₂ WritesMember texts members) :
    ofText (before ++ (objectText gap spaced ++ behind)) = ⟨.obj members true, true⟩ :=
  (spellsWithin_iff _ _).1
    (.intro blankBefore blankBehind (spells_object blank (forall₂_spaced written areSpaced)))

/-- A text starts like an object. -/
def StartsObject (text : List Char) : Prop :=
  (skipBlank text).head? = some '{'

/-- A document that starts like an object holds one. -/
theorem exists_holdsMembers {text : List Char} {found : Scan}
    (isDocument : ofText text = ⟨found, true⟩) (isObject : StartsObject text) : ∃ texts, HoldsMembers text texts := by
  obtain ⟨inside, isInside⟩ := List.head?_eq_some_iff.1 isObject
  obtain ⟨before, blankBefore, isText⟩ := exists_gap text
  have withoutGap : ofText ('{' :: inside) = ⟨found, true⟩ := by
    have within := (spellsWithin_iff text found).2 isDocument
    cases within with
    | @intro front core behind _ blankFront blankBehind spells =>
    obtain ⟨first, others, rfl, notBlank, -⟩ := spells.starts
    rw [List.cons_append, skipBlank_append blankFront first notBlank] at isInside
    rw [← isInside, ← spellsWithin_iff]
    exact .intro Json.blank_nil blankBehind spells
  obtain ⟨gap, texts, members, behind, blank, blankBehind, written, -, isObject⟩ :=
    exists_objectText withoutGap
  rw [isInside, isObject] at isText
  exact ⟨texts, before, gap, behind, texts, members, isText, blankBefore, blank, blankBehind,
    List.forall₂_same.2 fun text _ => .refl text, written⟩

/-- Two texts with the same members, further ones among those of the second, are read as objects
whose members are the same but for the order and the inserted ones. -/
theorem HoldsMembers.rearranged {text other : List Char} {texts extras others : List (List Char)}
    {names : List String} {limit : Nat} (holds : HoldsMembers text texts)
    (holdsOthers : HoldsMembers other others) (permuted : others.Perm (texts ++ extras))
    (insertable : ∀ extra ∈ extras, Insertable names limit extra) :
    ∃ members inserted moved, ofText text = ⟨.obj members true, true⟩ ∧
      ofText other = ⟨.obj moved true, true⟩ ∧ moved.Perm (members ++ inserted) ∧
      ∀ member ∈ inserted, Inserted names limit member := by
  obtain ⟨_, _, _, _, members, rfl, blankBefore, blank, blankBehind, spaced, written⟩ := holds
  obtain ⟨_, _, _, _, _, rfl, blankOtherBefore, otherBlank, blankOtherBehind, otherSpaced, -⟩ :=
    holdsOthers
  obtain ⟨inserted, moved, writtenMoved, isMoved, areInserted⟩ :=
    exists_rearranged written insertable permuted
  exact ⟨members, inserted, moved, ofText_objectText blankBefore blank blankBehind spaced written,
    ofText_objectText blankOtherBefore otherBlank blankOtherBehind otherSpaced writtenMoved,
    isMoved, areInserted⟩

end Scan

end AccelProfile
