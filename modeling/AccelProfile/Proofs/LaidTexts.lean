import AccelProfile.Proofs.NumberTexts
import AccelProfile.Proofs.StringTexts
import Mathlib.Data.List.TakeWhile

/-!
# Texts of documents read back

A text lays out a value when it writes its tokens in order, with any blank space between
them. Such a text is scanned as the value that it lays out, without a mark on it: by
induction on the layout, each part of it being read up to its end and no further. The
compact text of a value lays it out with no blank space at all.

Only numbers that a text can hold come back: the doubles have to be finite, and whole
numbers have to fit the words.
-/

namespace AccelProfile

open Decimal.Spelling (Ends)

/-- A number that reads back: a whole number within the words or a finite double. -/
def Number.Readable : Number → Prop
  | .int value => -0x8000000000000000 ≤ value ∧ value ≤ maxWord
  | .float value => value.isFinite = true

/-- The text of a number starts with a digit or a sign. -/
theorem Number.head_text {number : Number} (readable : number.Readable) :
    ∃ first others, number.text = first :: others ∧ (first = '-' ∨ first.isDigit = true) := by
  cases number with
  | int value =>
    obtain ⟨first, others, isCons⟩ :=
      List.exists_cons_of_ne_nil (Nat.toDigits_ne_nil (n := value.natAbs) (b := 10))
    by_cases negative : value < 0
    · exact ⟨'-', Nat.toDigits 10 value.natAbs, by simp [Number.text, negative], .inl rfl⟩
    · refine ⟨first, others, by simp [Number.text, negative, isCons], .inr ?_⟩
      exact Decimal.isDigit_of_mem_toDigits (n := value.natAbs) (by simp [isCons])
  | float value =>
    obtain ⟨negative, spelling, valid, text, -⟩ :=
      Decimal.text_spelled Decimal.jsonStyle 1 rfl readable
    obtain ⟨first, others, isCons⟩ := List.exists_cons_of_ne_nil valid.nonempty
    rw [Number.text, text, Decimal.Spelling.text, isCons]
    cases negative with
    | true => exact ⟨'-', _, rfl, .inl rfl⟩
    | false => exact ⟨first, _, rfl, .inr (valid.wholeDigits first (by simp [isCons]))⟩

/-- A number that reads back is scanned as itself. -/
theorem Scan.number_text {value : Number} (readable : value.Readable) {rest : List Char}
    (ends : Ends rest) : Scan.number (value.text ++ rest) = some (.num value, rest) := by
  cases value with
  | int value => exact number_wholeText readable.1 readable.2 ends
  | float value => exact number_doubleText readable ends

namespace Json

mutual

/-- All numbers of a value read back. -/
def Readable : Json → Prop
  | .num value => value.Readable
  | .arr items => ReadableItems items
  | .obj members => ReadableMembers members
  | .null | .bool _ | .str _ => True

/-- All numbers of the items read back. -/
def ReadableItems : List Json → Prop
  | [] => True
  | item :: others => Readable item ∧ ReadableItems others

/-- All numbers of the members read back. -/
def ReadableMembers : List (String × Json) → Prop
  | [] => True
  | (_, value) :: others => Readable value ∧ ReadableMembers others

end

theorem readableMembers_iff {members : List (String × Json)} :
    ReadableMembers members ↔ ∀ member ∈ members, member.2.Readable := by
  induction members with
  | nil => simp [ReadableMembers]
  | cons member others ih => simp [ReadableMembers, ih]

/-- A count reads back if it fits the words. -/
theorem readable_ofNat_iff (count : Nat) : (ofNat count).Readable ↔ count ≤ maxWord := by
  constructor
  · rintro ⟨-, most⟩
    exact_mod_cast most
  · intro fits
    exact ⟨by omega, by exact_mod_cast fits⟩

/-- A double reads back, since one that is not finite is no number of a document. -/
@[simp]
theorem readable_ofFloat (value : Float) : (ofFloat value).Readable := by
  rw [ofFloat]
  split
  · next finite => exact finite
  · trivial

/-- Only blank space. -/
def Blank (gap : List Char) : Prop :=
  ∀ c ∈ gap, Scan.isBlank c = true

mutual

/-- A text lays out a value. -/
inductive Laid : Json → List Char → Prop
  | null : Laid .null "null".toList
  | bool (value : Bool) : Laid (.bool value) (if value then "true" else "false").toList
  | num {value : Number} (readable : value.Readable) : Laid (.num value) value.text
  | str (value : String) : Laid (.str value) (quoted value)
  | emptyArr {gap : List Char} (blank : Blank gap) : Laid (.arr []) ('[' :: (gap ++ [']']))
  | arr {items : List Json} {gap text : List Char} (blank : Blank gap)
      (inside : LaidItems items text) : Laid (.arr items) ('[' :: (gap ++ text))
  | emptyObj {gap : List Char} (blank : Blank gap) : Laid (.obj []) ('{' :: (gap ++ ['}']))
  | obj {members : List (String × Json)} {gap text : List Char} (blank : Blank gap)
      (inside : LaidMembers members text) : Laid (.obj members) ('{' :: (gap ++ text))

/-- A text lays out one item or more, up to the closing bracket. -/
inductive LaidItems : List Json → List Char → Prop
  | last {item : Json} {text gap : List Char} (laid : Laid item text) (blank : Blank gap) :
      LaidItems [item] (text ++ (gap ++ [']']))
  | next {item : Json} {others : List Json} {text gap before rest : List Char}
      (laid : Laid item text) (blank : Blank gap) (blankBefore : Blank before)
      (laidRest : LaidItems others rest) :
      LaidItems (item :: others) (text ++ (gap ++ ',' :: (before ++ rest)))

/-- A text lays out one member or more, up to the closing brace. -/
inductive LaidMembers : List (String × Json) → List Char → Prop
  | last {key : String} {value : Json} {member gap : List Char}
      (laid : LaidMember key value member) (blank : Blank gap) :
      LaidMembers [(key, value)] (member ++ (gap ++ ['}']))
  | next {key : String} {value : Json} {others : List (String × Json)}
      {member gap before rest : List Char} (laid : LaidMember key value member)
      (blank : Blank gap) (blankBefore : Blank before) (laidRest : LaidMembers others rest) :
      LaidMembers ((key, value) :: others) (member ++ (gap ++ ',' :: (before ++ rest)))

/-- A text lays out the key and the value of a member. -/
inductive LaidMember : String → Json → List Char → Prop
  | intro {key : String} {value : Json} {text gap before : List Char} (blank : Blank gap)
      (blankBefore : Blank before) (laid : Laid value text) :
      LaidMember key value (quoted key ++ (gap ++ ':' :: (before ++ text)))

end

theorem blank_nil : Blank [] := fun c inside => by cases inside

mutual

/-- The compact text of a value lays it out. -/
theorem laid_compact : ∀ {json : Json}, json.Readable → Laid json json.compact
  | .null, _ => .null
  | .bool value, _ => .bool value
  | .num _, readable => .num readable
  | .str value, _ => .str value
  | .arr [], _ => .emptyArr blank_nil
  | .arr (item :: others), readable =>
    .arr blank_nil (laidItems_compact (List.cons_ne_nil item others) readable)
  | .obj [], _ => .emptyObj blank_nil
  | .obj (member :: others), readable =>
    .obj blank_nil (laidMembers_compact (List.cons_ne_nil member others) readable)

theorem laidItems_compact : ∀ {items : List Json}, items ≠ [] → ReadableItems items →
    LaidItems items (compactItems items)
  | [], nonempty, _ => absurd rfl nonempty
  | [_], _, ⟨readable, _⟩ => .last (laid_compact readable) blank_nil
  | _ :: _ :: _, _, ⟨readable, others⟩ =>
    .next (laid_compact readable) blank_nil blank_nil
      (laidItems_compact (List.cons_ne_nil _ _) others)

theorem laidMembers_compact : ∀ {members : List (String × Json)}, members ≠ [] →
    ReadableMembers members → LaidMembers members (compactMembers members)
  | [], nonempty, _ => absurd rfl nonempty
  | [(key, value)], _, ⟨readable, _⟩ => by
    have member : LaidMember key value (quoted key ++ ':' :: value.compact) :=
      .intro blank_nil blank_nil (laid_compact readable)
    have laid := LaidMembers.last member blank_nil
    simpa [compactMembers] using laid
  | (key, value) :: other :: others, _, ⟨readable, readableOthers⟩ => by
    have member : LaidMember key value (quoted key ++ ':' :: value.compact) :=
      .intro blank_nil blank_nil (laid_compact readable)
    have laidOthers := laidMembers_compact (List.cons_ne_nil other others) readableOthers
    have laid := LaidMembers.next member blank_nil blank_nil laidOthers
    simpa [compactMembers] using laid

end

end Json

namespace Scan

open Json

mutual

/-- A value as a scan without marks. -/
def ofJson : Json → Scan
  | .null => .null
  | .bool value => .bool value
  | .num value => .num value
  | .str value => .str value
  | .arr items => .arr (ofItems items) true
  | .obj members => .obj (ofMembers members) true

/-- The scans of all items. -/
def ofItems : List Json → List Scan
  | [] => []
  | item :: others => ofJson item :: ofItems others

/-- The scans of all members. -/
def ofMembers : List (String × Json) → List (Option String × Scan)
  | [] => []
  | (key, value) :: others => (some key, ofJson value) :: ofMembers others

end

/-- Blank space in front of a text is skipped, and nothing of the text is. -/
theorem skipBlank_append {gap : List Char} (blank : Blank gap) (first : Char)
    (notBlank : isBlank first = false) (rest : List Char) :
    skipBlank (gap ++ first :: rest) = first :: rest := by
  rw [skipBlank, List.dropWhile_append_of_pos blank]
  simp [notBlank]

/-- Blank space ends a number. -/
theorem ends_blank_append {gap rest : List Char} (blank : Blank gap) (ends : Ends rest) :
    Ends (gap ++ rest) := by
  cases gap with
  | nil => exact ends
  | cons head gap =>
    intro c first
    cases first
    have isBlankHead := blank head (by simp)
    simp only [isBlank, Bool.or_eq_true, decide_eq_true_eq] at isBlankHead
    rcases isBlankHead with ((rfl | rfl) | rfl) | rfl <;> decide

/-- Blank space and then a comma or a closing mark end a number. -/
theorem ends_of_mark {gap : List Char} (blank : Blank gap) (mark : Char)
    (isMark : mark ∈ [',', ']', '}']) (rest : List Char) : Ends (gap ++ mark :: rest) := by
  apply ends_blank_append blank
  intro c first
  cases first
  simp only [List.mem_cons, List.not_mem_nil, or_false] at isMark
  rcases isMark with rfl | rfl | rfl <;> decide

/-- The first character of a number is not blank and does not close anything. -/
theorem head_number {first : Char} (isFirst : first = '-' ∨ first.isDigit = true) :
    isBlank first = false ∧ first ≠ ']' := by
  rcases isFirst with rfl | isDigit
  · decide
  · constructor
    · by_contra isBlankFirst
      simp only [isBlank, Bool.not_eq_false, Bool.or_eq_true, decide_eq_true_eq] at isBlankFirst
      rcases isBlankFirst with ((rfl | rfl) | rfl) | rfl <;> exact absurd isDigit (by decide)
    · rintro rfl
      exact absurd isDigit (by decide)

/-- A text that lays out a value starts with a character that is not blank and does not
close anything. -/
theorem head_laid {json : Json} {text : List Char} (laid : Laid json text) :
    ∃ first others, text = first :: others ∧ isBlank first = false ∧ first ≠ ']' := by
  cases laid with
  | null => exact ⟨_, _, rfl, by decide, by decide⟩
  | bool value => cases value <;> exact ⟨_, _, rfl, by decide, by decide⟩
  | num readable =>
    obtain ⟨first, others, isCons, isFirst⟩ := Number.head_text readable
    exact ⟨first, others, isCons, head_number isFirst⟩
  | str => exact ⟨_, _, rfl, by decide, by decide⟩
  | emptyArr => exact ⟨_, _, rfl, by decide, by decide⟩
  | arr => exact ⟨_, _, rfl, by decide, by decide⟩
  | emptyObj => exact ⟨_, _, rfl, by decide, by decide⟩
  | obj => exact ⟨_, _, rfl, by decide, by decide⟩

theorem head_laidItems {items : List Json} {text : List Char} (laid : LaidItems items text) :
    ∃ first others, text = first :: others ∧ isBlank first = false ∧ first ≠ ']' := by
  cases laid with
  | last laid =>
    obtain ⟨first, others, rfl, isFirst⟩ := head_laid laid
    exact ⟨first, _, rfl, isFirst⟩
  | next laid =>
    obtain ⟨first, others, rfl, isFirst⟩ := head_laid laid
    exact ⟨first, _, rfl, isFirst⟩

/-- Members start with the quote of a key. -/
theorem head_laidMembers {members : List (String × Json)} {text : List Char}
    (laid : LaidMembers members text) : ∃ others, text = '"' :: others := by
  cases laid with
  | last laid =>
    cases laid
    exact ⟨_, rfl⟩
  | next laid =>
    cases laid
    exact ⟨_, rfl⟩

/-- A text that starts with a sign or a digit is read as a number. -/
theorem value_number {first : Char} (isFirst : first = '-' ∨ first.isDigit = true) (fuel : Nat)
    {text behind : List Char} {found : Scan}
    (isNumber : number (first :: text) = some (found, behind)) :
    value (fuel + 1) (first :: text) = (found, some behind) := by
  have other {mark : Char} (noMark : (mark = '-' || mark.isDigit) = false) : first ≠ mark := by
    rintro rfl
    simp only [Bool.or_eq_false_iff, decide_eq_false_iff_not] at noMark
    rcases isFirst with isMinus | digit
    · exact noMark.1 isMinus
    · exact absurd digit (by simp [noMark.2])
  rw [value.eq_def]
  dsimp only
  split
  · next found => exact absurd (List.cons.inj found).1 (other rfl)
  · next found => exact absurd (List.cons.inj found).1 (other rfl)
  · next found => exact absurd (List.cons.inj found).1 (other rfl)
  · next found => exact absurd (List.cons.inj found).1 (other rfl)
  · next found => exact absurd (List.cons.inj found).1 (other rfl)
  · next found => exact absurd (List.cons.inj found).1 (other rfl)
  · rw [isNumber]

/-- A string is read up to its closing quote. -/
theorem value_quoted (fuel : Nat) (text : String) (rest : List Char) :
    value (fuel + 1) (quoted text ++ rest) = (.str text, some rest) := by
  have isString := string_quoted text rest
  simp only [quoted, List.cons_append, List.append_assoc, List.nil_append, value, isString]

/-- The items of an array are read from the first character that is not blank. -/
theorem value_bracket (fuel : Nat) {text others : List Char} {first : Char}
    (skipped : skipBlank text = first :: others) (noClose : first ≠ ']') {found : List Scan}
    {behind : List Char} (isItems : Scan.items fuel (first :: others) = (found, some behind)) :
    value (fuel + 1) ('[' :: text) = (.arr found true, some behind) := by
  simp only [value, skipped]
  split
  · next closed => exact absurd (List.cons.inj closed).1 noClose
  · rw [isItems]
    rfl

/-- The members of an object are read from the first key on. -/
theorem value_brace (fuel : Nat) {text others : List Char}
    (skipped : skipBlank text = '"' :: others) {found : List (Option String × Scan)} {behind : List Char}
    (isMembers : Scan.members fuel ('"' :: others) = (found, some behind)) :
    value (fuel + 1) ('{' :: text) = (.obj found true, some behind) := by
  simp only [value, skipped]
  split
  · next closed => exact absurd (List.cons.inj closed).1 (by decide)
  · rw [isMembers]
    rfl

mutual

/-- A text that lays out a value is read as that value, up to its end. -/
theorem value_laid {json : Json} {text : List Char} (laid : Laid json text) (fuel : Nat)
    (enough : 2 * text.length ≤ fuel) {rest : List Char} (ends : Ends rest) :
    value fuel (text ++ rest) = (ofJson json, some rest) := by
  obtain ⟨first, others, isCons, -⟩ := head_laid laid
  obtain ⟨fuel, rfl⟩ : ∃ fewer, fuel = fewer + 1 :=
    ⟨fuel - 1, by rw [isCons, List.length_cons] at enough; omega⟩
  cases laid with
  | null => rfl
  | bool value => cases value <;> rfl
  | num readable =>
    obtain ⟨first, others, isCons, isFirst⟩ := Number.head_text readable
    have isNumber := number_text readable ends
    rw [isCons, List.cons_append] at isNumber ⊢
    rw [value_number isFirst fuel isNumber, ofJson]
  | str value => exact value_quoted fuel value rest
  | emptyArr blank =>
    simp only [List.cons_append, List.append_assoc, List.nil_append, value, ofJson, ofItems,
      skipBlank_append blank ']' rfl]
  | arr blank inside =>
    obtain ⟨first, others, isItems, notBlank, noClose⟩ := head_laidItems inside
    have found := items_laid inside fuel (by simp at enough; omega) rest
    rw [isItems, List.cons_append] at found
    rw [isItems, List.cons_append, List.append_assoc, List.cons_append,
      value_bracket fuel (skipBlank_append blank first notBlank _) noClose found, ofJson]
  | emptyObj blank =>
    simp only [List.cons_append, List.append_assoc, List.nil_append, value, ofJson, ofMembers,
      skipBlank_append blank '}' rfl]
  | obj blank inside =>
    obtain ⟨others, isMembers⟩ := head_laidMembers inside
    have found := members_laid inside fuel (by simp at enough; omega) rest
    rw [isMembers, List.cons_append] at found
    rw [isMembers, List.cons_append, List.append_assoc, List.cons_append,
      value_brace fuel (skipBlank_append blank '"' rfl _) found, ofJson]

/-- Items that a text lays out are read up to the closing bracket. -/
theorem items_laid {items : List Json} {text : List Char} (laid : LaidItems items text)
    (fuel : Nat) (enough : 2 * text.length + 1 ≤ fuel) (rest : List Char) :
    Scan.items fuel (text ++ rest) = (ofItems items, some rest) := by
  obtain ⟨fuel, rfl⟩ : ∃ fewer, fuel = fewer + 1 := ⟨fuel - 1, by omega⟩
  cases laid with
  | last laid blank =>
    have found := value_laid laid fuel (by simp at enough; omega)
      (ends_of_mark blank ']' (by decide) rest)
    simp only [List.append_assoc, List.cons_append, List.nil_append, Scan.items, found,
      skipBlank_append blank ']' rfl, ofItems]
  | @next item others text gap before inner laid blank blankBefore laidRest =>
    obtain ⟨first, inner, rfl, notBlank, -⟩ := head_laidItems laidRest
    have foundRest := items_laid laidRest fuel (by simp at enough ⊢; omega) rest
    have found := value_laid laid fuel (by simp at enough; omega)
      (ends_of_mark blank ',' (by decide) (before ++ first :: (inner ++ rest)))
    rw [List.cons_append] at foundRest
    simp only [List.append_assoc, List.cons_append, Scan.items, found, foundRest,
      skipBlank_append blank ',' rfl,
      skipBlank_append blankBefore first notBlank, ofItems]

/-- Members that a text lays out are read up to the closing brace. -/
theorem members_laid {members : List (String × Json)} {text : List Char}
    (laid : LaidMembers members text) (fuel : Nat) (enough : 2 * text.length + 1 ≤ fuel)
    (rest : List Char) : Scan.members fuel (text ++ rest) = (ofMembers members, some rest) := by
  obtain ⟨fuel, rfl⟩ : ∃ fewer, fuel = fewer + 1 := ⟨fuel - 1, by omega⟩
  cases laid with
  | @last key value member gap laidMember blank =>
    obtain ⟨blankKey, blankValue, laid⟩ := laidMember
    obtain ⟨first, text, rfl, notBlank, -⟩ := head_laid laid
    have found := value_laid laid fuel (by simp at enough ⊢; omega)
      (ends_of_mark blank '}' (by decide) rest)
    have isString := string_quoted key
    simp only [List.cons_append] at found isString
    simp only [quoted, List.append_assoc, List.cons_append, List.nil_append, Scan.members,
      isString, skipBlank_append blankKey ':' rfl,
      skipBlank_append blankValue first notBlank, found,
      skipBlank_append blank '}' rfl, ofMembers]
  | @next key value others member gap before inner laidMember blank blankBefore laidRest =>
    obtain ⟨blankKey, blankValue, laid⟩ := laidMember
    obtain ⟨first, text, rfl, notBlank, -⟩ := head_laid laid
    obtain ⟨inner, rfl⟩ := head_laidMembers laidRest
    have foundRest := members_laid laidRest fuel (by simp at enough ⊢; omega) rest
    have found := value_laid laid fuel (by simp at enough ⊢; omega)
      (ends_of_mark blank ',' (by decide) (before ++ '"' :: (inner ++ rest)))
    have isString := string_quoted key
    simp only [List.cons_append] at found foundRest isString
    simp only [quoted, List.append_assoc, List.cons_append, List.nil_append, Scan.members,
      isString, skipBlank_append blankKey ':' rfl,
      skipBlank_append blankValue first notBlank, found, foundRest,
      skipBlank_append blank ',' rfl,
      skipBlank_append blankBefore '"' rfl, ofMembers]

end

/-- A text that lays out a value is a document of that value and nothing else, whatever
blank space stands around it. -/
theorem ofText_laid {json : Json} {text : List Char} (laid : Laid json text)
    {before behind : List Char} (blankBefore : Blank before) (blankBehind : Blank behind) :
    ofText (before ++ (text ++ behind)) = ⟨ofJson json, true⟩ := by
  obtain ⟨first, others, isCons, notBlank, -⟩ := head_laid laid
  have skipped : skipBlank (before ++ (text ++ behind)) = text ++ behind := by
    rw [isCons]
    exact skipBlank_append blankBefore first notBlank _
  have nothing : skipBlank behind = [] := List.dropWhile_eq_nil_iff.2 blankBehind
  have ends : Ends behind := by
    rw [← List.append_nil behind]
    exact ends_blank_append blankBehind fun c first => by cases first
  have found := value_laid laid (2 * (before ++ (text ++ behind)).length + 2)
    (by simp only [List.length_append]; omega) ends
  simp only [ofText, skipped, found, Option.any_some, nothing, List.isEmpty_nil]

/-- The same for a text without blank space around it. -/
theorem ofText_of_laid {json : Json} {text : List Char} (laid : Laid json text) :
    ofText text = ⟨ofJson json, true⟩ := by
  have document := ofText_laid laid Json.blank_nil Json.blank_nil
  rwa [List.nil_append, List.append_nil] at document

end Scan

namespace Json

mutual

/-- How deep the containers of a value are nested. -/
def depth : Json → Nat
  | .arr items => depthItems items + 1
  | .obj members => depthMembers members + 1
  | .null | .bool _ | .num _ | .str _ => 0

/-- The depth of the deepest item. -/
def depthItems : List Json → Nat
  | [] => 0
  | item :: others => max (depth item) (depthItems others)

/-- The depth of the deepest member. -/
def depthMembers : List (String × Json) → Nat
  | [] => 0
  | (_, value) :: others => max (depth value) (depthMembers others)

end

theorem depthMembers_le_iff {members : List (String × Json)} {limit : Nat} :
    depthMembers members ≤ limit ↔ ∀ member ∈ members, member.2.depth ≤ limit := by
  induction members with
  | nil => simp [depthMembers]
  | cons member others ih => simp [depthMembers, ih]

@[simp]
theorem depth_ofNat (count : Nat) : (ofNat count).depth = 0 := rfl

@[simp]
theorem depth_ofFloat (value : Float) : (ofFloat value).depth = 0 := by
  rw [ofFloat]
  split <;> rfl

end Json

namespace Scan

open Json

mutual

/-- The scan of a value gives the value back, if it is not too deep. -/
theorem toJson?_ofJson : ∀ {json : Json} {limit : Nat}, json.depth ≤ limit →
    toJson? limit (ofJson json) = some json
  | .null, _, _ => rfl
  | .bool _, _, _ => rfl
  | .num _, _, _ => rfl
  | .str _, _, _ => rfl
  | .arr _, 0, deep => absurd deep (by simp [depth])
  | .arr items, limit + 1, shallow => by
    rw [ofJson, toJson?, toItems?_ofItems (Nat.le_of_succ_le_succ shallow), Option.map_some]
  | .obj _, 0, deep => absurd deep (by simp [depth])
  | .obj members, limit + 1, shallow => by
    rw [ofJson, toJson?, toMembers?_ofMembers (Nat.le_of_succ_le_succ shallow), Option.map_some]

theorem toItems?_ofItems : ∀ {items : List Json} {limit : Nat}, depthItems items ≤ limit →
    toItems? limit (ofItems items) = some items
  | [], _, _ => rfl
  | item :: others, limit, shallow => by
    have both := Nat.max_le.1 shallow
    rw [ofItems, toItems?, toJson?_ofJson both.1, toItems?_ofItems both.2]
    rfl

theorem toMembers?_ofMembers : ∀ {members : List (String × Json)} {limit : Nat},
    depthMembers members ≤ limit → toMembers? limit (ofMembers members) = some members
  | [], _, _ => rfl
  | (key, value) :: others, limit, shallow => by
    have both := Nat.max_le.1 shallow
    rw [ofMembers, toMembers?, toJson?_ofJson both.1, toMembers?_ofMembers both.2]
    rfl

end

end Scan

/-- A text that lays out a value is parsed as that value. -/
theorem Json.parse_laid {json : Json} {text : List Char} (laid : Laid json text)
    {before behind : List Char} (blankBefore : Blank before) (blankBehind : Blank behind)
    (shallow : json.depth ≤ nestingLimit) :
    Json.parse (before ++ (text ++ behind)) = some json := by
  simp only [Json.parse, Scan.ofText_laid laid blankBefore blankBehind, if_true,
    Scan.toJson?_ofJson shallow]

theorem Json.toList_text (json : Json) : (json.text false).toList = json.compact := by
  simp [text]

/-- The compact text of a value is parsed as that value. -/
theorem Json.parse_compact {json : Json} (readable : json.Readable)
    (shallow : json.depth ≤ nestingLimit) : Json.parse json.compact = some json := by
  have parsed := parse_laid (laid_compact readable) blank_nil blank_nil shallow
  rwa [List.nil_append, List.append_nil] at parsed

end AccelProfile
