import AccelProfile.Json.Printer
import AccelProfile.Json.Scan

/-!
# Texts of strings read back

A string is written between quotes, with escapes for the characters that cannot stand for
themselves there. Reading such a text takes one escape after the other and puts back the
character that it stands for, so the string comes back with all its characters, and the
reading goes on behind the closing quote.
-/

namespace AccelProfile.Scan

open Json (escape quoted)

/-- The two digits of a control character read as its number. -/
theorem hexWord?_control : ∀ code < 0x20,
    hexWord? '0' '0' (Json.hexDigit (code / 16)) (Json.hexDigit (code % 16)) = some code := by
  decide

/-- The number of a control character is no surrogate. -/
theorem pushUnit_control {code : Nat} (control : code < 0x20) (seen : List Char) :
    (Progress.whole seen).pushUnit code = .whole (Char.ofNat code :: seen) := by
  have noLead : isLead code = false := by
    simp [isLead]
    omega
  have noTrail : isTrail code = false := by
    simp [isTrail]
    omega
  rw [Progress.pushUnit, noLead, noTrail]
  rfl

/-- A character that stands for itself is read as itself. -/
theorem string_plain {c : Char} (noQuote : c ≠ '"') (noMark : c ≠ '\\')
    (noControl : ¬ c.toNat < 0x20) (seen rest : List Char) :
    string (.whole seen) (c :: rest) = string (.whole (c :: seen)) rest := by
  rw [string.eq_def]
  split
  · next found => cases found
  · next found => exact absurd (List.cons.inj found).1 noQuote
  · next found => exact absurd (List.cons.inj found).1 noMark
  · next found => exact absurd (List.cons.inj found).1 noMark
  · next found =>
    cases found
    rw [if_neg (by simp [noMark]; omega)]
    rfl

/-- Reading goes through an escape in one step. -/
theorem string_escape (c : Char) (seen rest : List Char) :
    string (.whole seen) (escape c ++ rest) = string (.whole (c :: seen)) rest := by
  rw [escape]
  split
  · next isQuote => subst isQuote; rfl
  split
  · next isMark => subst isMark; rfl
  split
  · next isBackspace => subst isBackspace; rfl
  split
  · next isTab => subst isTab; rfl
  split
  · next isFeed => subst isFeed; rfl
  split
  · next isForm => subst isForm; rfl
  split
  · next isReturn => subst isReturn; rfl
  split
  · next control =>
    simp only [List.cons_append, List.nil_append, string, hexWord?_control c.toNat control,
      pushUnit_control control, Char.ofNat_toNat]
  · next noQuote noMark _ _ _ _ _ noControl => exact string_plain noQuote noMark noControl seen rest

/-- Reading goes through all characters of a string. -/
theorem string_flatMap_escape (characters seen rest : List Char) :
    string (.whole seen) (characters.flatMap escape ++ rest) =
      string (.whole (characters.reverse ++ seen)) rest := by
  induction characters generalizing seen with
  | nil => rfl
  | cons c characters ih =>
    rw [List.flatMap_cons, List.append_assoc, string_escape, ih]
    simp

/-- A string that was written is the string that is read. -/
theorem string_quoted (text : String) (rest : List Char) :
    string (.whole []) (text.toList.flatMap escape ++ '"' :: rest) = some (some text, rest) := by
  rw [string_flatMap_escape, string, Progress.text?]
  simp

end AccelProfile.Scan
