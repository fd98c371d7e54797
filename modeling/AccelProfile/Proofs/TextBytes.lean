import AccelProfile.FileTree

/-!
# Bytes of texts

A text is stored as the bytes of its characters in UTF-8. A character below U+0080 is one
byte, which is no part of any other character. So a mark such as a comma or a line feed
stands in a text exactly where its byte stands among the bytes.
-/

namespace AccelProfile.FileTree

/-- The bytes of a text are those of its characters. -/
theorem bytesOf_eq_flatMap (text : String) :
    bytesOf text = text.toList.flatMap String.utf8EncodeChar := by
  rw [bytesOf, ← String.utf8Encode_toList, List.utf8Encode, List.data_toByteArray]

/-- The bytes of two texts in a row. -/
@[simp]
theorem bytesOf_append (left right : String) :
    bytesOf (left ++ right) = bytesOf left ++ bytesOf right := by
  simp [bytesOf_eq_flatMap]

/-- A character below U+0080 is one byte, and its byte stands in no other character. -/
theorem mem_utf8EncodeChar_iff {mark : Char} (ascii : mark.toNat < 128) (c : Char) :
    UInt8.ofNat mark.toNat ∈ String.utf8EncodeChar c ↔ mark = c := by
  constructor
  · intro member
    by_cases small : c.val.toNat ≤ 0x7f
    · have codes : String.utf8EncodeChar c = [UInt8.ofNat c.val.toNat] := by
        simp only [String.utf8EncodeChar, small, if_true]
      rw [codes, List.mem_singleton] at member
      have numbers := congrArg UInt8.toNat member
      simp only [UInt8.toNat_ofNat'] at numbers
      have same : mark.toNat = c.toNat := by
        have : c.toNat = c.val.toNat := rfl
        omega
      exact Char.toNat_inj.1 same
    · -- every byte of a longer character is at least 128
      have large : ∀ byte ∈ String.utf8EncodeChar c, 128 ≤ byte.toNat := by
        intro byte inside
        simp only [String.utf8EncodeChar, small, if_false] at inside
        split at inside
        · simp only [List.mem_cons, List.not_mem_nil, or_false] at inside
          rcases inside with rfl | rfl <;> simp only [UInt8.toNat_ofNat'] <;> omega
        · split at inside
          · simp only [List.mem_cons, List.not_mem_nil, or_false] at inside
            rcases inside with rfl | rfl | rfl <;> simp only [UInt8.toNat_ofNat'] <;> omega
          · simp only [List.mem_cons, List.not_mem_nil, or_false] at inside
            rcases inside with rfl | rfl | rfl | rfl <;> simp only [UInt8.toNat_ofNat'] <;> omega
      have bound := large _ member
      simp only [UInt8.toNat_ofNat'] at bound
      omega
  · rintro rfl
    have small : mark.val.toNat ≤ 0x7f := Nat.le_of_lt_succ ascii
    simp only [String.utf8EncodeChar, small, if_true, List.mem_singleton]
    rfl

/-- A character below U+0080 stands in a text exactly if its byte is one of the bytes. -/
theorem mem_bytesOf_iff {mark : Char} (ascii : mark.toNat < 128) (text : String) :
    UInt8.ofNat mark.toNat ∈ bytesOf text ↔ mark ∈ text.toList := by
  rw [bytesOf_eq_flatMap, List.mem_flatMap]
  constructor
  · rintro ⟨c, inside, byte⟩
    exact (mem_utf8EncodeChar_iff ascii c).1 byte ▸ inside
  · intro inside
    exact ⟨mark, inside, (mem_utf8EncodeChar_iff ascii mark).2 rfl⟩

/-- Reading the bytes of a text gives the text. -/
theorem fromUTF8?_bytesOf (text : String) :
    String.fromUTF8? ⟨(bytesOf text).toArray⟩ = some text := by
  have bytes : (⟨(bytesOf text).toArray⟩ : ByteArray) = text.toByteArray := by
    simp [bytesOf]
  have valid : text.toByteArray.IsValidUTF8 := text.isValidUTF8
  rw [bytes, String.fromUTF8?, dif_pos valid]
  rfl

/-- Bytes are read as a text exactly if they are the bytes of that text. -/
theorem fromUTF8?_eq_some_iff (bytes : List UInt8) (text : String) :
    String.fromUTF8? ⟨bytes.toArray⟩ = some text ↔ bytesOf text = bytes := by
  constructor
  · intro read
    rw [String.fromUTF8?] at read
    split at read
    · cases read
      rfl
    · cases read
  · rintro rfl
    exact fromUTF8?_bytesOf text

/-- Bytes end with the byte of a character below U+0080 exactly if their text ends with that
character. -/
theorem bytesOf_eq_concat_iff {mark : Char} (ascii : mark.toNat < 128) (text : String)
    (bytes : List UInt8) :
    bytesOf text = bytes ++ [UInt8.ofNat mark.toNat] ↔
      ∃ front : String, text = front.push mark ∧ bytesOf front = bytes := by
  have small : mark.val.toNat ≤ 0x7f := Nat.le_of_lt_succ ascii
  have single : String.utf8EncodeChar mark = [UInt8.ofNat mark.toNat] := by
    simp only [String.utf8EncodeChar, small, if_true]
    rfl
  have pushed (front : String) :
      bytesOf (front.push mark) = bytesOf front ++ [UInt8.ofNat mark.toNat] := by
    simp [bytesOf_eq_flatMap, single]
  constructor
  · intro ends
    rcases List.eq_nil_or_concat text.toList with empty | ⟨front, last, split⟩
    · simp [bytesOf_eq_flatMap, empty] at ends
    · -- The last byte is one of the last character, which is the mark therefore.
      have whole : text = (String.ofList front).push last := by
        rw [← String.toList_inj]
        simpa using split
      have bytesOfLast : bytesOf text = bytesOf (String.ofList front) ++ String.utf8EncodeChar last := by
        simp [whole, bytesOf_eq_flatMap]
      have inLast : UInt8.ofNat mark.toNat ∈ String.utf8EncodeChar last := by
        have nonempty : String.utf8EncodeChar last ≠ [] := by simp
        have lastByte := congrArg List.getLast? (bytesOfLast.symm.trans ends)
        rw [List.getLast?_append, List.getLast?_eq_some_getLast nonempty, Option.some_or,
          List.getLast?_concat, Option.some.injEq] at lastByte
        exact lastByte ▸ List.getLast_mem nonempty
      obtain rfl : mark = last := (mem_utf8EncodeChar_iff ascii last).1 inLast
      refine ⟨String.ofList front, whole, ?_⟩
      rw [whole, pushed] at ends
      exact List.append_cancel_right ends
  · rintro ⟨front, rfl, rfl⟩
    exact pushed front

end AccelProfile.FileTree
