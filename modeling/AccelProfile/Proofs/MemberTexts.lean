import AccelProfile.Proofs.LaidTexts
import AccelProfile.Proofs.TokenFronts

/-!
# Texts of members

The members of an object stand in its text one after the other, with commas between them. Each of
them is a text of its own: a key and, behind a colon, a value, with blank space around them. What
such a text is read as does not depend on what stands before or behind it. So an object is read as
the members that its parts are read as, in the order of the parts, and every text that is read as
an object is put together in this way.

The second half needs that a scan never reads further than the value it finds. By induction on the
fuel, the part of the text that was read is read as the same value in front of any other rest; the
fuel that is needed grows with that part alone.
-/

namespace AccelProfile.Scan

open Json (Blank blank_nil)
open Decimal.Spelling (Ends)

/-- A text that is read as one value wherever it stands, if a number in it ends there. -/
structure Spells (text : List Char) (found : Scan) : Prop where
  /-- It starts with a character that is not blank and does not close an array. -/
  starts : ∃ first others, text = first :: others ∧ isBlank first = false ∧ first ≠ ']'
  reads : ∀ fuel rest, 2 * text.length ≤ fuel → Ends rest →
    value fuel (text ++ rest) = (found, some rest)

/-- A text that is read as one value, with blank space around it. -/
inductive SpellsWithin : List Char → Scan → Prop
  | intro {before core behind : List Char} {found : Scan} (blankBefore : Blank before)
      (blankBehind : Blank behind) (spells : Spells core found) :
      SpellsWithin (before ++ (core ++ behind)) found

/-- A text that is read as a member: a key, and behind a colon a value, with blank space around
both of them. -/
inductive WritesMember : List Char → Option String × Scan → Prop
  | intro {before key gap value : List Char} {name? : Option String} {found : Scan}
      (blankBefore : Blank before) (blankGap : Blank gap)
      (isKey : string (.whole []) key = some (name?, [])) (isValue : SpellsWithin value found) :
      WritesMember (before ++ '"' :: (key ++ (gap ++ ':' :: value))) (name?, found)

/-- Texts with commas between them. -/
def joined (texts : List (List Char)) : List Char :=
  [','].intercalate texts

theorem joined_cons_cons (text other : List Char) (others : List (List Char)) :
    joined (text :: other :: others) = text ++ ',' :: joined (other :: others) := by
  rw [joined, joined, List.intercalate_cons_cons, List.append_assoc, List.singleton_append]

theorem joined_singleton (text : List Char) : joined [text] = text :=
  List.intercalate_singleton

/-- The text behind the first one of joined texts. -/
theorem exists_joined_eq (text : List Char) (others : List (List Char)) :
    ∃ more, joined (text :: others) = text ++ more := by
  cases others with
  | nil => exact ⟨[], by rw [joined_singleton, List.append_nil]⟩
  | cons other others => exact ⟨_, joined_cons_cons text other others⟩

theorem joined_cons_of_ne_nil (text : List Char) {others : List (List Char)} (some : others ≠ []) :
    joined (text :: others) = text ++ ',' :: joined others := by
  obtain ⟨other, others, rfl⟩ := List.exists_cons_of_ne_nil some
  exact joined_cons_cons text other others

/-! ## Blank space in front -/

theorem blank_append {left right : List Char} (blankLeft : Blank left) (blankRight : Blank right) :
    Blank (left ++ right) := fun c inside =>
  (List.mem_append.1 inside).elim (blankLeft c) (blankRight c)

theorem SpellsWithin.blank_append {gap text : List Char} {found : Scan} (blank : Blank gap)
    (within : SpellsWithin text found) : SpellsWithin (gap ++ text) found := by
  cases within with
  | intro blankBefore blankBehind spells =>
    rw [← List.append_assoc]
    exact .intro (Scan.blank_append blank blankBefore) blankBehind spells

theorem WritesMember.blank_append {gap text : List Char} {member : Option String × Scan}
    (blank : Blank gap) (writes : WritesMember text member) :
    WritesMember (gap ++ text) member := by
  cases writes with
  | intro blankBefore blankGap isKey isValue =>
    rw [← List.append_assoc]
    exact .intro (Scan.blank_append blank blankBefore) blankGap isKey isValue

/-- Blank space in front of joined texts belongs to the first one of them. -/
theorem exists_blank_joined {α : Type} {writes : List Char → α → Prop} {gap : List Char}
    (closed : ∀ {text part}, writes text part → writes (gap ++ text) part)
    {texts : List (List Char)} {parts : List α} (written : List.Forall₂ writes texts parts)
    (some : texts ≠ []) :
    ∃ spaced, List.Forall₂ writes spaced parts ∧ spaced ≠ [] ∧
      joined spaced = gap ++ joined texts := by
  cases written with
  | nil => exact absurd rfl some
  | @cons text _ others _ first rest =>
    refine ⟨(gap ++ text) :: others, .cons (closed first) rest, List.cons_ne_nil _ _, ?_⟩
    cases others with
    | nil => rw [joined_singleton, joined_singleton]
    | cons other others => rw [joined_cons_cons, joined_cons_cons, List.append_assoc]

/-! ## Reading parts -/

theorem skipBlank_blank_append {gap : List Char} (blank : Blank gap) (text : List Char) :
    skipBlank (gap ++ text) = skipBlank text :=
  List.dropWhile_append_of_pos blank

/-- Blank space in front of a text. -/
theorem exists_gap (text : List Char) : ∃ gap, Blank gap ∧ text = gap ++ skipBlank text :=
  ⟨text.takeWhile isBlank, fun _ => List.mem_takeWhile_imp,
    (List.takeWhile_append_dropWhile (p := isBlank)).symm⟩

/-- A value is read up to the mark behind it. -/
theorem SpellsWithin.reads {text : List Char} {found : Scan} (within : SpellsWithin text found)
    (fuel : Nat) (enough : 2 * text.length ≤ fuel) {mark : Char} (isMark : mark ∈ [',', ']', '}'])
    (rest : List Char) :
    ∃ gap, Blank gap ∧
      value fuel (skipBlank (text ++ mark :: rest)) = (found, some (gap ++ mark :: rest)) := by
  cases within with
  | @intro before core behind _ blankBefore blankBehind spells =>
  obtain ⟨first, others, rfl, notBlank, -⟩ := spells.starts
  have read := spells.reads fuel (behind ++ mark :: rest)
    (by simp only [List.length_append] at enough; omega) (ends_of_mark blankBehind mark isMark rest)
  refine ⟨behind, blankBehind, ?_⟩
  rw [List.append_assoc, List.append_assoc, List.cons_append,
    skipBlank_append blankBefore first notBlank, ← List.cons_append, read]

/-- The first of some values starts with a character that does not close an array. -/
theorem SpellsWithin.starts {text : List Char} {found : Scan} (within : SpellsWithin text found)
    (rest : List Char) :
    ∃ first others, skipBlank (text ++ rest) = first :: others ∧ first ≠ ']' := by
  cases within with
  | @intro before core behind _ blankBefore blankBehind spells =>
  obtain ⟨first, others, rfl, notBlank, noClose⟩ := spells.starts
  refine ⟨first, others ++ (behind ++ rest), ?_, noClose⟩
  rw [List.append_assoc, List.append_assoc, List.cons_append,
    skipBlank_append blankBefore first notBlank]

/-- Items with commas between them are read up to the closing bracket. -/
theorem items_joined {texts : List (List Char)} {found : List Scan}
    (written : List.Forall₂ SpellsWithin texts found) (some : texts ≠ []) (fuel : Nat)
    (enough : 2 * (joined texts).length + 1 ≤ fuel) (rest : List Char) :
    items fuel (skipBlank (joined texts ++ ']' :: rest)) = (found, Option.some rest) := by
  induction written generalizing fuel with
  | nil => exact absurd rfl some
  | @cons text item texts found within written ih =>
    obtain ⟨fuel, rfl⟩ : ∃ fewer, fuel = fewer + 1 := ⟨fuel - 1, by omega⟩
    cases written with
    | nil =>
      rw [joined_singleton] at enough ⊢
      obtain ⟨gap, blank, read⟩ := within.reads fuel (by omega)
        (show ']' ∈ [',', ']', '}'] by decide) rest
      simp only [items, read, skipBlank_append blank ']' rfl]
    | @cons other _ others _ _ _ =>
      rw [joined_cons_cons] at enough ⊢
      simp only [List.length_append, List.length_cons] at enough
      obtain ⟨gap, blank, read⟩ := within.reads fuel (by omega)
        (show ',' ∈ [',', ']', '}'] by decide) (joined (other :: others) ++ ']' :: rest)
      rw [List.append_assoc, List.cons_append]
      simp only [items, read, skipBlank_append blank ',' rfl,
        ih (List.cons_ne_nil _ _) fuel (by omega)]

/-- Members start with the quote of a key. -/
theorem WritesMember.starts {text : List Char} {member : Option String × Scan}
    (writes : WritesMember text member) (rest : List Char) :
    ∃ others, skipBlank (text ++ rest) = '"' :: others := by
  obtain ⟨blankBefore, -, -, -⟩ := writes
  rw [List.append_assoc, List.cons_append, skipBlank_append blankBefore '"' rfl]
  exact ⟨_, rfl⟩

/-- A member is read up to the mark behind it: its key, the colon, and its value. -/
theorem WritesMember.reads {text : List Char} {member : Option String × Scan}
    (writes : WritesMember text member) (fuel : Nat) (enough : 2 * text.length ≤ fuel)
    {mark : Char} (isMark : mark ∈ [',', ']', '}']) (rest : List Char) :
    ∃ key behindKey behindColon gap, skipBlank (text ++ mark :: rest) = '"' :: key ∧
      string (.whole []) key = some (member.1, behindKey) ∧
      skipBlank behindKey = ':' :: behindColon ∧ Blank gap ∧
      value fuel (skipBlank behindColon) = (member.2, some (gap ++ mark :: rest)) := by
  cases writes with
  | @intro before key gap value _ _ blankBefore blankGap isKey isValue =>
  obtain ⟨front, isFront, reads⟩ := string_front isKey
  rw [List.append_nil] at isFront
  subst isFront
  simp only [List.length_append, List.length_cons] at enough
  obtain ⟨behind, blank, read⟩ := isValue.reads fuel (by omega) isMark rest
  refine ⟨key ++ (gap ++ ':' :: (value ++ mark :: rest)), gap ++ ':' :: (value ++ mark :: rest),
    value ++ mark :: rest, behind, ?_, reads _, skipBlank_append blankGap ':' rfl _, blank, read⟩
  simp only [List.append_assoc, List.cons_append, skipBlank_append blankBefore '"' rfl]

/-- Members with commas between them are read up to the closing brace. -/
theorem members_joined {texts : List (List Char)} {found : List (Option String × Scan)}
    (written : List.Forall₂ WritesMember texts found) (some : texts ≠ []) (fuel : Nat)
    (enough : 2 * (joined texts).length + 1 ≤ fuel) (rest : List Char) :
    members fuel (skipBlank (joined texts ++ '}' :: rest)) = (found, Option.some rest) := by
  induction written generalizing fuel with
  | nil => exact absurd rfl some
  | @cons text member texts found writes written ih =>
    obtain ⟨fuel, rfl⟩ : ∃ fewer, fuel = fewer + 1 := ⟨fuel - 1, by omega⟩
    cases written with
    | nil =>
      rw [joined_singleton] at enough ⊢
      obtain ⟨key, behindKey, behindColon, gap, starts, isKey, colon, blank, read⟩ :=
        writes.reads fuel (by omega) (show '}' ∈ [',', ']', '}'] by decide) rest
      simp only [starts, members, isKey, colon, read, skipBlank_append blank '}' rfl]
    | @cons other _ others _ _ _ =>
      rw [joined_cons_cons] at enough ⊢
      simp only [List.length_append, List.length_cons] at enough
      obtain ⟨key, behindKey, behindColon, gap, starts, isKey, colon, blank, read⟩ :=
        writes.reads fuel (by omega) (show ',' ∈ [',', ']', '}'] by decide)
          (joined (other :: others) ++ '}' :: rest)
      rw [List.append_assoc, List.cons_append]
      simp only [starts, members, isKey, colon, read, skipBlank_append blank ',' rfl,
        ih (List.cons_ne_nil _ _) fuel (by omega)]

/-! ## What was read -/

/-- A text is that of a value if it is read as the value with any fuel that is not too little. -/
theorem spells_of_step {first : Char} {others : List Char} {found : Scan}
    (notBlank : isBlank first = false) (noClose : first ≠ ']')
    (reads : ∀ fuel rest, 2 * others.length + 1 ≤ fuel → Ends rest →
      value (fuel + 1) (first :: (others ++ rest)) = (found, some rest)) :
    Spells (first :: others) found where
  starts := ⟨first, others, rfl, notBlank, noClose⟩
  reads := by
    intro fuel rest enough ends
    rw [List.length_cons] at enough
    obtain ⟨fuel, rfl⟩ : ∃ fewer, fuel = fewer + 1 := ⟨fuel - 1, by omega⟩
    exact reads fuel rest (by omega) ends

theorem spells_emptyArray {gap : List Char} (blank : Blank gap) :
    Spells ('[' :: (gap ++ [']'])) (.arr [] true) := by
  refine spells_of_step rfl (by decide) fun fuel rest _ _ => ?_
  simp only [value, List.append_assoc, List.cons_append, List.nil_append,
    skipBlank_append blank ']' rfl]

/-- The text of an array is that of its items with commas between them. -/
theorem spells_array {gap : List Char} (blank : Blank gap) {texts : List (List Char)}
    {found : List Scan} (written : List.Forall₂ SpellsWithin texts found) (some : texts ≠ []) :
    Spells ('[' :: (gap ++ (joined texts ++ [']']))) (.arr found true) := by
  refine spells_of_step rfl (by decide) fun fuel rest enough _ => ?_
  simp only [List.length_append] at enough
  have read := items_joined written some fuel (by omega) rest
  obtain ⟨first, others, skipped, noClose⟩ : ∃ first others,
      skipBlank (joined texts ++ ']' :: rest) = first :: others ∧ first ≠ ']' := by
    cases written with
    | nil => exact absurd rfl some
    | @cons text _ others _ within _ =>
      obtain ⟨more, isJoined⟩ := exists_joined_eq text others
      rw [isJoined, List.append_assoc]
      exact within.starts _
  rw [skipped] at read
  simp only [List.append_assoc, List.cons_append, List.nil_append]
  exact value_bracket fuel ((skipBlank_blank_append blank _).trans skipped) noClose read

/-- The text of an object whose members have the given texts, with blank space behind the opening
brace. -/
def objectText (gap : List Char) (texts : List (List Char)) : List Char :=
  '{' :: (gap ++ (joined texts ++ ['}']))

/-- The text of an object is that of its members with commas between them. -/
theorem spells_object {gap : List Char} (blank : Blank gap) {texts : List (List Char)}
    {found : List (Option String × Scan)} (written : List.Forall₂ WritesMember texts found) :
    Spells (objectText gap texts) (.obj found true) := by
  refine spells_of_step rfl (by decide) fun fuel rest enough _ => ?_
  simp only [List.length_append] at enough
  simp only [List.append_assoc, List.cons_append, List.nil_append]
  cases written with
  | nil =>
    have noMembers : gap ++ (joined [] ++ '}' :: rest) = gap ++ '}' :: rest := rfl
    simp only [noMembers, value, skipBlank_append blank '}' rfl]
  | @cons text _ others _ writes written =>
    have read := members_joined (.cons writes written) (List.cons_ne_nil _ _) fuel (by omega) rest
    obtain ⟨more, isJoined⟩ := exists_joined_eq text others
    obtain ⟨key, skipped⟩ := writes.starts (more ++ '}' :: rest)
    rw [← List.append_assoc, ← isJoined] at skipped
    rw [skipped] at read
    exact value_brace fuel ((skipBlank_blank_append blank _).trans skipped) read

/-- What a scan with some fuel reads is a front of the text that is made up of such parts. -/
structure Fronts (fuel : Nat) : Prop where
  value : ∀ {text found behind}, value fuel text = (found, some behind) →
    ∃ front, text = front ++ behind ∧ Spells front found
  items : ∀ {text found behind}, items fuel text = (found, some behind) →
    ∃ texts, List.Forall₂ SpellsWithin texts found ∧ texts ≠ [] ∧
      text = joined texts ++ ']' :: behind
  members : ∀ {text found behind}, members fuel text = (found, some behind) →
    ∃ texts, List.Forall₂ WritesMember texts found ∧ texts ≠ [] ∧
      text = joined texts ++ '}' :: behind

namespace Fronts

variable {fuel : Nat}

/-- A text that starts with a brace and is read with one more step is that of an object. -/
theorem object_succ (fronts : Fronts fuel) {inside behind : List Char} {found : Scan}
    (isValue : Scan.value (fuel + 1) ('{' :: inside) = (found, some behind)) :
    ∃ gap texts members, Blank gap ∧ List.Forall₂ WritesMember texts members ∧
      found = .obj members true ∧ '{' :: inside = objectText gap texts ++ behind := by
  obtain ⟨gap, blank, isInside⟩ := exists_gap inside
  simp only [Scan.value] at isValue
  split at isValue
  · next closed =>
    cases isValue
    rw [closed] at isInside
    exact ⟨gap, [], [], blank, .nil, rfl, by simp [isInside, objectText, joined]⟩
  · obtain ⟨members, rest, isMembers⟩ : ∃ members rest,
        Scan.members fuel (skipBlank inside) = (members, rest) := ⟨_, _, rfl⟩
    rw [isMembers] at isValue
    cases isValue
    obtain ⟨texts, written, -, isJoined⟩ := fronts.members isMembers
    rw [isJoined] at isInside
    exact ⟨gap, texts, members, blank, written, rfl, by simp [isInside, objectText]⟩

/-- A value that is read with one more step. -/
theorem value_succ (fronts : Fronts fuel) {text behind : List Char} {found : Scan}
    (isValue : Scan.value (fuel + 1) text = (found, some behind)) :
    ∃ front, text = front ++ behind ∧ Spells front found := by
  rw [Scan.value.eq_def] at isValue
  dsimp only at isValue
  split at isValue
  · obtain ⟨rfl, rfl⟩ := literal_front isValue
    exact ⟨['n', 'u', 'l', 'l'], rfl, spells_of_step rfl (by decide) fun _ rest _ _ =>
      literal_append ['u', 'l', 'l'] .null rest⟩
  · obtain ⟨rfl, rfl⟩ := literal_front isValue
    exact ⟨['t', 'r', 'u', 'e'], rfl, spells_of_step rfl (by decide) fun _ rest _ _ =>
      literal_append ['r', 'u', 'e'] (.bool true) rest⟩
  · obtain ⟨rfl, rfl⟩ := literal_front isValue
    exact ⟨['f', 'a', 'l', 's', 'e'], rfl, spells_of_step rfl (by decide) fun _ rest _ _ =>
      literal_append ['a', 'l', 's', 'e'] (.bool false) rest⟩
  · split at isValue
    · next isString =>
      cases isValue
      obtain ⟨front, rfl, reads⟩ := string_front isString
      refine ⟨'"' :: front, rfl, spells_of_step rfl (by decide) fun _ rest _ _ => ?_⟩
      simp only [Scan.value, reads]
    · next isString =>
      cases isValue
      obtain ⟨front, rfl, reads⟩ := string_front isString
      refine ⟨'"' :: front, rfl, spells_of_step rfl (by decide) fun _ rest _ _ => ?_⟩
      simp only [Scan.value, reads]
    · cases isValue
  · next inside =>
    obtain ⟨gap, blank, isInside⟩ := exists_gap inside
    split at isValue
    · next closed =>
      cases isValue
      rw [closed] at isInside
      exact ⟨_, by simp [isInside], spells_emptyArray blank⟩
    · obtain ⟨found, rest, isItems⟩ : ∃ found rest,
          Scan.items fuel (skipBlank inside) = (found, rest) := ⟨_, _, rfl⟩
      rw [isItems] at isValue
      cases isValue
      obtain ⟨texts, written, some, isJoined⟩ := fronts.items isItems
      rw [isJoined] at isInside
      exact ⟨_, by simp [isInside], spells_array blank written some⟩
  · next inside =>
    obtain ⟨gap, texts, members, blank, written, rfl, isText⟩ := fronts.object_succ (by
      rw [Scan.value.eq_def]
      exact isValue)
    exact ⟨_, isText, spells_object blank written⟩
  · split at isValue
    · next isNumber =>
      cases isValue
      obtain ⟨first, others, rfl, isFirst, reads⟩ := number_front isNumber
      obtain ⟨notBlank, noClose⟩ := head_number isFirst
      refine ⟨first :: others, rfl, spells_of_step notBlank noClose fun fuel rest _ ends => ?_⟩
      exact value_number isFirst fuel (reads rest ends)
    · cases isValue

/-- Items that are read with one more step. -/
theorem items_succ (fronts : Fronts fuel) {text behind : List Char} {found : List Scan}
    (isItems : Scan.items (fuel + 1) text = (found, some behind)) :
    ∃ texts, List.Forall₂ SpellsWithin texts found ∧ texts ≠ [] ∧
      text = joined texts ++ ']' :: behind := by
  rw [Scan.items.eq_def] at isItems
  dsimp only at isItems
  split at isItems
  · cases isItems
  · next item rest isValue =>
    obtain ⟨front, rfl, spells⟩ := fronts.value isValue
    obtain ⟨gap, blank, isGap⟩ := exists_gap rest
    have within : SpellsWithin (front ++ gap) item := .intro blank_nil blank spells
    split at isItems
    · next later comma =>
      obtain ⟨others, last, isOthers⟩ : ∃ others last,
          Scan.items fuel (skipBlank later) = (others, last) := ⟨_, _, rfl⟩
      rw [isOthers] at isItems
      cases isItems
      obtain ⟨texts, written, some, isJoined⟩ := fronts.items isOthers
      obtain ⟨before, blankBefore, isBefore⟩ := exists_gap later
      obtain ⟨spaced, written, some, isSpaced⟩ :=
        exists_blank_joined (SpellsWithin.blank_append blankBefore) written some
      refine ⟨(front ++ gap) :: spaced, .cons within written, List.cons_ne_nil _ _, ?_⟩
      rw [comma, isBefore, isJoined] at isGap
      rw [joined_cons_of_ne_nil _ some, isSpaced, isGap]
      simp
    · next close =>
      cases isItems
      refine ⟨[front ++ gap], .cons within .nil, List.cons_ne_nil _ _, ?_⟩
      rw [close] at isGap
      rw [joined_singleton, isGap, List.append_assoc]
    · cases isItems

/-- Members that are read with one more step. -/
theorem members_succ (fronts : Fronts fuel) {text behind : List Char}
    {found : List (Option String × Scan)}
    (isMembers : Scan.members (fuel + 1) text = (found, some behind)) :
    ∃ texts, List.Forall₂ WritesMember texts found ∧ texts ≠ [] ∧
      text = joined texts ++ '}' :: behind := by
  rw [Scan.members.eq_def] at isMembers
  dsimp only at isMembers
  split at isMembers
  · split at isMembers
    · cases isMembers
    · next quoted key? behindKey isString =>
      obtain ⟨key, rfl, reads⟩ := string_front isString
      have isKey : string (.whole []) key = some (key?, []) := by
        rw [← reads [], List.append_nil]
      obtain ⟨gap, blankGap, isGap⟩ := exists_gap behindKey
      split at isMembers
      · next behindColon colon =>
        obtain ⟨before, blankBefore, isBefore⟩ := exists_gap behindColon
        split at isMembers
        · cases isMembers
        · next value rest isValue =>
          obtain ⟨front, isFront, spells⟩ := fronts.value isValue
          obtain ⟨after, blankAfter, isAfter⟩ := exists_gap rest
          have writes : WritesMember
              ('"' :: (key ++ (gap ++ ':' :: (before ++ (front ++ after))))) (key?, value) :=
            .intro blank_nil blankGap isKey (.intro blankBefore blankAfter spells)
          rw [isFront] at isBefore
          rw [colon, isBefore] at isGap
          split at isMembers
          · next later comma =>
            obtain ⟨others, last, isOthers⟩ : ∃ others last,
                Scan.members fuel (skipBlank later) = (others, last) := ⟨_, _, rfl⟩
            rw [isOthers] at isMembers
            cases isMembers
            obtain ⟨texts, written, some, isJoined⟩ := fronts.members isOthers
            obtain ⟨space, blankSpace, isSpace⟩ := exists_gap later
            obtain ⟨spaced, written, some, isSpaced⟩ :=
              exists_blank_joined (WritesMember.blank_append blankSpace) written some
            refine ⟨_ :: spaced, .cons writes written, List.cons_ne_nil _ _, ?_⟩
            rw [comma, isSpace, isJoined] at isAfter
            rw [joined_cons_of_ne_nil _ some, isSpaced, isGap, isAfter]
            simp
          · next close =>
            cases isMembers
            refine ⟨[_], .cons writes .nil, List.cons_ne_nil _ _, ?_⟩
            rw [close] at isAfter
            rw [joined_singleton, isGap, isAfter]
            simp
          · cases isMembers
      · cases isMembers
  · cases isMembers

end Fronts

theorem fronts (fuel : Nat) : Fronts fuel := by
  induction fuel with
  | zero =>
    refine ⟨fun isValue => ?_, fun isItems => ?_, fun isMembers => ?_⟩
    · cases isValue
    · cases isItems
    · cases isMembers
  | succ fuel ih => exact ⟨ih.value_succ, ih.items_succ, ih.members_succ⟩

/-! ## Documents -/

theorem blank_of_skipBlank {text : List Char} (nothing : skipBlank text = []) : Blank text :=
  List.dropWhile_eq_nil_iff.1 nothing

/-- A value with blank space around it is all that is found in a text of its own. -/
theorem spellsWithin_iff (text : List Char) (found : Scan) :
    SpellsWithin text found ↔ ofText text = ⟨found, true⟩ := by
  constructor
  · intro within
    cases within with
    | @intro before core behind _ blankBefore blankBehind spells =>
    obtain ⟨first, others, isCons, notBlank, -⟩ := spells.starts
    have skipped : skipBlank (before ++ (core ++ behind)) = core ++ behind := by
      rw [isCons]
      exact skipBlank_append blankBefore first notBlank _
    have ends : Ends behind := by
      rw [← List.append_nil behind]
      exact ends_blank_append blankBehind fun c first => by cases first
    have read := spells.reads (2 * (before ++ (core ++ behind)).length + 2) behind
      (by simp only [List.length_append]; omega) ends
    have nothing : skipBlank behind = [] := List.dropWhile_eq_nil_iff.2 blankBehind
    simp only [ofText, skipped, read, Option.any_some, nothing, List.isEmpty_nil]
  · intro isDocument
    obtain ⟨gap, blank, isGap⟩ := exists_gap text
    obtain ⟨root, rest, isValue⟩ : ∃ root rest,
        value (2 * text.length + 2) (skipBlank text) = (root, rest) := ⟨_, _, rfl⟩
    simp only [ofText, isValue, Document.mk.injEq] at isDocument
    obtain ⟨rfl, complete⟩ := isDocument
    cases rest with
    | none => cases complete
    | some behind =>
      obtain ⟨front, isFront, spells⟩ := (fronts _).value isValue
      have blankBehind : Blank behind := blank_of_skipBlank (List.isEmpty_iff.1 complete)
      rw [isGap, isFront]
      exact .intro blank blankBehind spells

/-- A document that starts with a brace is the text of an object, and all that is behind it is
blank. -/
theorem exists_objectText {inside : List Char} {found : Scan}
    (isDocument : ofText ('{' :: inside) = ⟨found, true⟩) :
    ∃ gap texts members behind, Blank gap ∧ Blank behind ∧
      List.Forall₂ WritesMember texts members ∧ found = .obj members true ∧
      '{' :: inside = objectText gap texts ++ behind := by
  obtain ⟨root, rest, isValue⟩ : ∃ root rest,
      value (2 * ('{' :: inside).length + 2) ('{' :: inside) = (root, rest) := ⟨_, _, rfl⟩
  have noBlank : skipBlank ('{' :: inside) = '{' :: inside :=
    skipBlank_append blank_nil '{' rfl inside
  simp only [ofText, noBlank, isValue, Document.mk.injEq] at isDocument
  obtain ⟨rfl, complete⟩ := isDocument
  cases rest with
  | none => cases complete
  | some behind =>
    have blankBehind : Blank behind := blank_of_skipBlank (List.isEmpty_iff.1 complete)
    obtain ⟨gap, texts, members, blank, written, isObject, isText⟩ := (fronts _).object_succ isValue
    exact ⟨gap, texts, members, behind, blank, blankBehind, written, isObject, isText⟩

end AccelProfile.Scan
