/-!
# Blank characters

The characters with the Unicode property `White_Space`, and the trimming of a text at
both ends by that property. It is the wider of the two notions of blank space in this
library: a byte order mark and a zero-width space are not blank, a no-break space is.
JSON has its own, narrower notion beside its reader.
-/

namespace AccelProfile.Text

/-- The property `White_Space`: 25 characters, all of them separators or controls. -/
def isBlank (c : Char) : Bool :=
  let code := c.toNat
  (9 ≤ code && code ≤ 13) || code == 0x20 || code == 0x85 || code == 0xA0 || code == 0x1680 ||
    (0x2000 ≤ code && code ≤ 0x200A) || code == 0x2028 || code == 0x2029 || code == 0x202F ||
    code == 0x205F || code == 0x3000

/-- The text without the blank characters at its two ends. -/
def trim (text : List Char) : List Char :=
  ((text.dropWhile isBlank).reverse.dropWhile isBlank).reverse

/-- A text that neither starts nor ends with blank space is not trimmed. -/
theorem trim_eq {text front back : List Char} {first last : Char} (starts : text = first :: back)
    (ends : text = front ++ [last]) (noBlankFirst : isBlank first = false)
    (noBlankLast : isBlank last = false) : trim text = text := by
  have whole : text.dropWhile isBlank = text := by
    rw [starts]
    simp [noBlankFirst]
  rw [trim, whole, ends]
  simp [noBlankLast]

/-- A blank character at the end of a text is trimmed. -/
theorem trim_concat_of_isBlank {c : Char} (blank : isBlank c = true) (text : List Char) :
    trim (text ++ [c]) = trim text := by
  rw [trim, trim, List.dropWhile_append]
  split
  · next allBlank =>
    rw [List.isEmpty_iff] at allBlank
    simp [allBlank, blank]
  · simp [blank]

example : trim " a b\u3000".toList = "a b".toList := by decide
example : trim "\ufeff ".toList = "\ufeff".toList := by decide

end AccelProfile.Text
