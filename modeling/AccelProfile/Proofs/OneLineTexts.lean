import AccelProfile.Json.Printer
import AccelProfile.Proofs.NumberTexts

/-!
# Texts of one line

The compact text of a value has no line feed in it, whatever the value is: a string writes its line
feeds as escapes, a number is made of digits and marks, and a double that is not finite is a literal.
The text of an object ends where the object does.
-/

namespace AccelProfile.Json

/-- A string never shows a line feed. -/
theorem lineFeed_notMem_escape (c : Char) : '\n' ∉ escape c := by
  have digits : ∀ code < 0x20, '\n' ∉ [hexDigit (code / 16), hexDigit (code % 16)] := by decide
  rw [escape]
  split
  · decide
  split
  · decide
  split
  · decide
  split
  · decide
  split
  · decide
  split
  · decide
  split
  · decide
  split
  · next control =>
    have noDigit := digits c.toNat control
    simpa using noDigit
  · next noFeed _ _ _ =>
    rw [List.mem_singleton]
    exact Ne.symm noFeed

theorem lineFeed_notMem_quoted (text : String) : '\n' ∉ quoted text := by
  intro inside
  rcases List.mem_cons.1 inside with quote | behind
  · exact absurd quote (by decide)
  rcases List.mem_append.1 behind with escaped | quote
  · obtain ⟨c, -, inEscape⟩ := List.mem_flatMap.1 escaped
    exact lineFeed_notMem_escape c inEscape
  · exact absurd quote (by decide)

/-- A double that is not finite is written as a literal, behind the sign of an infinity. -/
theorem lineFeed_notMem_of_not_finite {value : Float} (notFinite : value.isFinite ≠ true) :
    '\n' ∉ Decimal.jsonStyle.text value := by
  rw [Decimal.Style.text]
  split
  · decide
  · next sign _ => cases sign <;> decide
  · next sign _ => cases sign <;> decide
  · next unpacked =>
    have finite : value.toModel.unpack.isFinite = true := by
      rw [unpacked]
      rfl
    exact absurd finite notFinite

theorem lineFeed_notMem_text (number : Number) : '\n' ∉ number.text := by
  cases number with
  | int value =>
    intro inside
    rcases List.mem_append.1 inside with sign | digit
    · split at sign
      · exact absurd sign (by decide)
      · cases sign
    · exact absurd (Decimal.isDigit_of_mem_toDigits digit) (by decide)
  | float value =>
    by_cases finite : value.isFinite = true
    · intro inside
      obtain ⟨negative, spelling, valid, text, -⟩ :=
        Decimal.text_spelled Decimal.jsonStyle 1 rfl finite
      rw [Number.text, text] at inside
      rcases List.mem_append.1 inside with sign | inText
      · cases negative <;> exact absurd sign (by decide)
      · rcases Decimal.Spelling.mem_text valid inText with digit | mark
        · exact absurd digit (by decide)
        · exact absurd mark (by decide)
    · exact lineFeed_notMem_of_not_finite finite

mutual

/-- The compact text of a value is one line. -/
theorem lineFeed_notMem_compact : ∀ json : Json, '\n' ∉ json.compact
  | .null => by decide
  | .bool value => by cases value <;> decide
  | .num number => lineFeed_notMem_text number
  | .str value => lineFeed_notMem_quoted value
  | .arr items => by
    have ofItems := lineFeed_notMem_compactItems items
    simpa [compact] using ofItems
  | .obj members => by
    have ofMembers := lineFeed_notMem_compactMembers members
    simpa [compact] using ofMembers

theorem lineFeed_notMem_compactItems : ∀ items : List Json, '\n' ∉ compactItems items
  | [] => by decide
  | [item] => by
    have ofItem := lineFeed_notMem_compact item
    simpa [compactItems] using ofItem
  | item :: next :: others => by
    have ofItem := lineFeed_notMem_compact item
    have ofOthers := lineFeed_notMem_compactItems (next :: others)
    simpa [compactItems, ofItem] using ofOthers

theorem lineFeed_notMem_compactMembers : ∀ members : List (String × Json),
    '\n' ∉ compactMembers members
  | [] => by decide
  | [(key, value)] => by
    have ofKey := lineFeed_notMem_quoted key
    have ofValue := lineFeed_notMem_compact value
    simpa [compactMembers, ofKey] using ofValue
  | (key, value) :: next :: others => by
    have ofKey := lineFeed_notMem_quoted key
    have ofValue := lineFeed_notMem_compact value
    have ofOthers := lineFeed_notMem_compactMembers (next :: others)
    simpa [compactMembers, ofKey, ofValue] using ofOthers

end

/-- The compact text of an object ends with a brace. -/
theorem compactMembers_ends : ∀ members : List (String × Json),
    ∃ front, compactMembers members = front ++ ['}']
  | [] => ⟨[], rfl⟩
  | [(key, value)] => ⟨quoted key ++ ':' :: value.compact, by simp [compactMembers]⟩
  | (key, value) :: next :: others => by
    obtain ⟨front, ends⟩ := compactMembers_ends (next :: others)
    exact ⟨quoted key ++ ':' :: (value.compact ++ ',' :: front), by simp [compactMembers, ends]⟩

end AccelProfile.Json
