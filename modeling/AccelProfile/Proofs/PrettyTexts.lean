import AccelProfile.Proofs.LaidTexts

/-!
# Both forms of a text lay out the value

The pretty text of a value differs from the compact one by blank space alone: a line feed and
the indentation in front of every item, every member and every closing mark, and one space
behind every colon. So it lays out the same value, and a reader cannot tell the two forms apart.
-/

namespace AccelProfile.Json

theorem blank_lineStart (depth : Nat) : Blank (lineStart depth) := by
  intro c inside
  rcases List.mem_cons.1 inside with rfl | space
  · rfl
  · rw [List.eq_of_mem_replicate space]
    rfl

theorem blank_space : Blank [' '] := fun c inside => by
  rw [List.mem_singleton.1 inside]
  rfl

mutual

/-- The pretty text of a value lays it out, at any depth. -/
theorem laid_prettyAt (depth : Nat) : ∀ {json : Json}, json.Readable →
    Laid json (prettyAt depth json)
  | .null, _ => .null
  | .bool value, _ => .bool value
  | .num _, readable => .num readable
  | .str value, _ => .str value
  | .arr [], _ => .emptyArr blank_nil
  | .arr (item :: others), readable => by
    obtain ⟨text, isText, laid⟩ :=
      laidItems_pretty (depth + 1) (List.cons_ne_nil item others) readable
    rw [prettyAt, isText]
    exact .arr (blank_lineStart _) laid
  | .obj [], _ => .emptyObj blank_nil
  | .obj (member :: others), readable => by
    obtain ⟨text, isText, laid⟩ :=
      laidMembers_pretty (depth + 1) (List.cons_ne_nil member others) readable
    rw [prettyAt, isText]
    exact .obj (blank_lineStart _) laid

/-- Behind the start of their first line, the pretty texts of items lay them out. -/
theorem laidItems_pretty (depth : Nat) : ∀ {items : List Json}, items ≠ [] →
    ReadableItems items →
    ∃ text, prettyItems depth items = lineStart depth ++ text ∧ LaidItems items text
  | [], nonempty, _ => absurd rfl nonempty
  | [_], _, ⟨readable, _⟩ =>
    ⟨_, by simp [prettyItems], .last (laid_prettyAt depth readable) (blank_lineStart (depth - 1))⟩
  | _ :: other :: others, _, ⟨readable, readableOthers⟩ => by
    obtain ⟨rest, isRest, laidRest⟩ :=
      laidItems_pretty depth (List.cons_ne_nil other others) readableOthers
    have laid := LaidItems.next (laid_prettyAt depth readable) blank_nil (blank_lineStart depth)
      laidRest
    exact ⟨_, by simp [prettyItems, isRest], laid⟩

/-- Behind the start of their first line, the pretty texts of members lay them out. -/
theorem laidMembers_pretty (depth : Nat) : ∀ {members : List (String × Json)}, members ≠ [] →
    ReadableMembers members →
    ∃ text, prettyMembers depth members = lineStart depth ++ text ∧ LaidMembers members text
  | [], nonempty, _ => absurd rfl nonempty
  | [(key, value)], _, ⟨readable, _⟩ => by
    have member : LaidMember key value (quoted key ++ ':' :: ' ' :: prettyAt depth value) :=
      .intro blank_nil blank_space (laid_prettyAt depth readable)
    exact ⟨_, by simp [prettyMembers], .last member (blank_lineStart (depth - 1))⟩
  | (key, value) :: other :: others, _, ⟨readable, readableOthers⟩ => by
    obtain ⟨rest, isRest, laidRest⟩ :=
      laidMembers_pretty depth (List.cons_ne_nil other others) readableOthers
    have member : LaidMember key value (quoted key ++ ':' :: ' ' :: prettyAt depth value) :=
      .intro blank_nil blank_space (laid_prettyAt depth readable)
    have laid := LaidMembers.next member blank_nil (blank_lineStart depth) laidRest
    exact ⟨_, by simp [prettyMembers, isRest], laid⟩

end

/-- Either text of a value lays it out. -/
theorem laid_text (isPretty : Bool) {json : Json} (readable : json.Readable) :
    Laid json (json.text isPretty).toList := by
  rw [text, String.toList_ofList]
  cases isPretty with
  | true => exact laid_prettyAt 0 readable
  | false => exact laid_compact readable

end AccelProfile.Json
