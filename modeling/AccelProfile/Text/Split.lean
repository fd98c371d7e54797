/-!
# Splitting at a mark

A sequence cut at every occurrence of one mark: lines of a byte sequence, entries of a
comma separated list. There is always one piece more than there are marks, so the pieces
and the mark determine the sequence.
-/

namespace AccelProfile.Text

variable {α : Type} [DecidableEq α]

/-- The pieces of a sequence between the occurrences of `mark`, empty pieces included. -/
def pieces (mark : α) (sequence : List α) : List (List α) :=
  sequence.foldr
    (fun head found => if head = mark then [] :: found else found.modifyHead (head :: ·)) [[]]

@[simp]
theorem pieces_nil (mark : α) : pieces mark [] = [[]] :=
  rfl

theorem pieces_cons (mark head : α) (tail : List α) :
    pieces mark (head :: tail) =
      if head = mark then [] :: pieces mark tail
      else (pieces mark tail).modifyHead (head :: ·) :=
  rfl

/-- A sequence has at least one piece. -/
theorem pieces_ne_nil (mark : α) (sequence : List α) : pieces mark sequence ≠ [] := by
  induction sequence with
  | nil => simp
  | cons head tail ih =>
    by_cases atMark : head = mark
    · simp [pieces_cons, atMark]
    · simpa [pieces_cons, atMark] using ih

/-- There is one piece more than there are marks. -/
theorem length_pieces (mark : α) (sequence : List α) :
    (pieces mark sequence).length = sequence.count mark + 1 := by
  induction sequence with
  | nil => rfl
  | cons head tail ih =>
    by_cases atMark : head = mark <;> simp [pieces_cons, atMark, ih]

/-- A sequence without the mark is one piece. -/
theorem pieces_of_notMem {mark : α} {sequence : List α} (noMark : mark ∉ sequence) :
    pieces mark sequence = [sequence] := by
  induction sequence with
  | nil => rfl
  | cons head tail ih =>
    rw [List.mem_cons, not_or] at noMark
    rw [pieces_cons, if_neg (Ne.symm noMark.1), ih noMark.2]
    rfl

/-- Cutting two sequences joined by a mark gives the pieces of the first and then those
    of the second. -/
theorem pieces_append_mark (mark : α) (left right : List α) :
    pieces mark (left ++ mark :: right) = pieces mark left ++ pieces mark right := by
  induction left with
  | nil => simp [pieces_cons]
  | cons head tail ih =>
    by_cases atMark : head = mark
    · simp [pieces_cons, atMark, ih]
    · obtain ⟨first, others, split⟩ := List.exists_cons_of_ne_nil (pieces_ne_nil mark tail)
      simp [pieces_cons, atMark, ih, split]

/-- Where two sequences are joined, the last piece of the first and the first piece of the second
    become one. -/
theorem pieces_append (mark : α) (left : List α) {right first : List α} {others : List (List α)}
    (cut : pieces mark right = first :: others) :
    ∃ front last, pieces mark left = front ++ [last] ∧
      pieces mark (left ++ right) = front ++ (last ++ first) :: others := by
  induction left with
  | nil => exact ⟨[], [], rfl, cut⟩
  | cons head tail ih =>
    obtain ⟨front, last, cutTail, joined⟩ := ih
    by_cases atMark : head = mark
    · exact ⟨[] :: front, last, by simp [pieces_cons, atMark, cutTail],
        by simp [pieces_cons, atMark, joined]⟩
    · cases front with
      | nil => exact ⟨[], head :: last, by simp [pieces_cons, atMark, cutTail],
          by simp [pieces_cons, atMark, joined]⟩
      | cons earliest front => exact ⟨(head :: earliest) :: front, last,
          by simp [pieces_cons, atMark, cutTail], by simp [pieces_cons, atMark, joined]⟩

example : pieces ',' "a,,b".toList = ["a".toList, [], "b".toList] := by decide

end AccelProfile.Text
