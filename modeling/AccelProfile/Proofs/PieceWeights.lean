import Mathlib.Data.List.DropRight
import Mathlib.Data.List.Induction
import Mathlib.Order.Bounds.Basic
import AccelProfile.Text.Split

/-!
# Pieces and their weights

A sequence that grows item by item, cut at its marks, grows in its last piece: an item makes that
piece longer, and a mark closes it and opens an empty one. So a count that every item makes larger
and every mark sets back to zero is the weight of the piece that is open, and the largest value that
the count ever had is the largest weight of a piece, be it closed or not.
-/

namespace AccelProfile.Text

variable {α : Type} [DecidableEq α]

/-! ## The last piece -/

/-- What stands in front of the last piece of a sequence ends with a mark, if there is
anything. -/
theorem rdropWhile_eq_nil_or_concat (mark : α) (sequence : List α) :
    sequence.rdropWhile (· ≠ mark) = [] ∨
      ∃ front, sequence.rdropWhile (· ≠ mark) = front ++ [mark] := by
  rcases List.eq_nil_or_concat' (sequence.rdropWhile (· ≠ mark)) with none | ⟨front, last, cut⟩
  · exact Or.inl none
  · have stops := List.rdropWhile_last_not (· ≠ mark) sequence (by rw [cut]; simp)
    obtain rfl : last = mark := by
      simp only [cut] at stops
      simpa using stops
    exact Or.inr ⟨front, cut⟩

theorem mark_notMem_rtakeWhile (mark : α) (sequence : List α) :
    mark ∉ sequence.rtakeWhile (· ≠ mark) := by
  intro inside
  have passed := List.mem_rtakeWhile_imp inside
  simp at passed

/-- The last piece of a sequence is what stands behind its last mark. -/
theorem getLast?_pieces (mark : α) (sequence : List α) :
    (pieces mark sequence).getLast? = some (sequence.rtakeWhile (· ≠ mark)) := by
  have noMark := mark_notMem_rtakeWhile mark sequence
  have whole : sequence = sequence.rdropWhile (· ≠ mark) ++ sequence.rtakeWhile (· ≠ mark) :=
    List.rdropWhile_append_rtakeWhile.symm
  generalize sequence.rtakeWhile (· ≠ mark) = last at noMark whole ⊢
  rcases rdropWhile_eq_nil_or_concat mark sequence with none | ⟨front, cut⟩
  · rw [whole, none, List.nil_append, pieces_of_notMem noMark, List.getLast?_singleton]
  · rw [whole, cut, List.append_assoc, List.singleton_append, pieces_append_mark,
      pieces_of_notMem noMark, List.getLast?_concat]

/-- A mark opens an empty piece. -/
theorem pieces_concat_mark (mark : α) (sequence : List α) :
    pieces mark (sequence ++ [mark]) = pieces mark sequence ++ [[]] :=
  pieces_append_mark mark sequence []

/-- An item that is no mark joins the last piece. -/
theorem pieces_concat_of_ne {mark item : α} (plain : item ≠ mark) (sequence : List α) :
    ∃ front, pieces mark sequence = front ++ [sequence.rtakeWhile (· ≠ mark)] ∧
      pieces mark (sequence ++ [item]) =
        front ++ [sequence.rtakeWhile (· ≠ mark) ++ [item]] := by
  have single : pieces mark [item] = [[item]] :=
    pieces_of_notMem (by simpa using plain.symm)
  obtain ⟨front, last, cut, joined⟩ := pieces_append mark sequence single
  have isLast := getLast?_pieces mark sequence
  rw [cut, List.getLast?_concat, Option.some_inj] at isLast
  exact ⟨front, isLast ▸ cut, isLast ▸ joined⟩

/-! ## Stretches without a mark -/

/-- A piece is a stretch of the sequence in which no mark stands. -/
theorem stretch_of_mem_pieces {mark : α} {sequence piece : List α}
    (member : piece ∈ pieces mark sequence) : piece <:+: sequence ∧ mark ∉ piece := by
  induction sequence using List.reverseRecOn generalizing piece with
  | nil => simp_all
  | append_singleton sequence item ih =>
    have earlier {piece : List α} (member : piece ∈ pieces mark sequence) :
        piece <:+: sequence ++ [item] ∧ mark ∉ piece :=
      ⟨(ih member).1.trans (List.prefix_append _ _).isInfix, (ih member).2⟩
    by_cases atMark : item = mark
    · rw [atMark, pieces_concat_mark, List.mem_append, List.mem_singleton] at member
      rcases member with old | rfl
      · exact earlier old
      · exact ⟨List.nil_infix, List.not_mem_nil⟩
    · obtain ⟨front, cut, grown⟩ := pieces_concat_of_ne atMark sequence
      rw [grown, List.mem_append, List.mem_singleton] at member
      rcases member with old | rfl
      · exact earlier (by rw [cut]; exact List.mem_append_left _ old)
      · obtain ⟨before, whole⟩ := List.rtakeWhile_suffix (· ≠ mark) sequence
        refine ⟨List.IsSuffix.isInfix ⟨before, ?_⟩, ?_⟩
        · rw [← List.append_assoc, whole]
        · rw [List.mem_append, List.mem_singleton, not_or]
          exact ⟨mark_notMem_rtakeWhile mark sequence, Ne.symm atMark⟩

/-- A stretch in which no mark stands lies inside of a piece. -/
theorem exists_piece_of_stretch {mark : α} {sequence stretch : List α}
    (inside : stretch <:+: sequence) (noMark : mark ∉ stretch) :
    ∃ piece ∈ pieces mark sequence, stretch <:+: piece := by
  obtain ⟨left, right, rfl⟩ := inside
  obtain ⟨first, others, cut⟩ := List.exists_cons_of_ne_nil (pieces_ne_nil mark right)
  obtain ⟨front, last, cutStretch, joined⟩ := pieces_append mark stretch cut
  rw [pieces_of_notMem noMark] at cutStretch
  obtain ⟨rfl, rfl⟩ : front = [] ∧ stretch = last := by
    cases front with
    | nil => simpa using cutStretch
    | cons => simp at cutStretch
  obtain ⟨before, latest, -, whole⟩ := pieces_append mark left joined
  exact ⟨latest ++ (stretch ++ first), by simp [whole], latest, first, by simp⟩

/-! ## Weights -/

/-- The weight of the last piece of a sequence, and the largest weight of a piece. -/
structure Weighs (weight : List α → Nat) (mark : α) (sequence : List α) (last largest : Nat) :
    Prop where
  last : weight (sequence.rtakeWhile (· ≠ mark)) = last
  largest : IsGreatest {heavy | ∃ piece ∈ pieces mark sequence, weight piece = heavy} largest

namespace Weighs

variable {weight : List α → Nat} {mark item : α} {sequence : List α} {last largest : Nat}

theorem nil (weightless : weight [] = 0) : Weighs weight mark [] 0 0 := by
  refine ⟨weightless, ⟨[], by simp, weightless⟩, ?_⟩
  rintro _ ⟨piece, member, rfl⟩
  rw [pieces_nil, List.mem_singleton] at member
  rw [member, weightless]

/-- A mark sets the weight of the last piece back, and leaves the largest weight as it is. -/
theorem concat_mark (weighs : Weighs weight mark sequence last largest)
    (weightless : weight [] = 0) : Weighs weight mark (sequence ++ [mark]) 0 largest := by
  refine ⟨by simpa using weightless, ?_, ?_⟩
  · obtain ⟨piece, member, heavy⟩ := weighs.largest.1
    exact ⟨piece, by simp [pieces_concat_mark, member], heavy⟩
  · rintro _ ⟨piece, member, rfl⟩
    rw [pieces_concat_mark, List.mem_append, List.mem_singleton] at member
    rcases member with old | rfl
    · exact weighs.largest.2 ⟨piece, old, rfl⟩
    · exact weightless ▸ Nat.zero_le largest

/-- An item that is no mark and does not make the last piece lighter can only move the largest
weight by the new weight of that piece. -/
theorem concat_of_ne (weighs : Weighs weight mark sequence last largest) (plain : item ≠ mark)
    {heavier : Nat} (grows : last ≤ heavier)
    (grown : weight (sequence.rtakeWhile (· ≠ mark) ++ [item]) = heavier) :
    Weighs weight mark (sequence ++ [item]) heavier (max largest heavier) := by
  obtain ⟨front, cut, cutGrown⟩ := pieces_concat_of_ne plain sequence
  have bound := weighs.largest.2
  refine ⟨by simpa [plain] using grown, ?_, ?_⟩
  · rcases Nat.le_total heavier largest with below | above
    · obtain ⟨piece, member, heavy⟩ := weighs.largest.1
      rw [cut, List.mem_append, List.mem_singleton] at member
      rw [Nat.max_eq_left below]
      rcases member with old | rfl
      · exact ⟨piece, by simp [cutGrown, old], heavy⟩
      · have settled : heavier = largest := by
          have reached := weighs.last
          omega
        exact ⟨_, by rw [cutGrown]; simp, grown.trans settled⟩
    · rw [Nat.max_eq_right above]
      exact ⟨_, by rw [cutGrown]; simp, grown⟩
  · rintro _ ⟨piece, member, rfl⟩
    rw [cutGrown, List.mem_append, List.mem_singleton] at member
    rcases member with old | rfl
    · exact Nat.le_trans (bound ⟨piece, by simp [cut, old], rfl⟩) (Nat.le_max_left _ _)
    · exact grown ▸ Nat.le_max_right _ _

theorem last_le_largest (weighs : Weighs weight mark sequence last largest) : last ≤ largest := by
  have member := List.mem_of_getLast? (getLast?_pieces mark sequence)
  exact weighs.last ▸ weighs.largest.2 ⟨_, member, rfl⟩

/-- An item that is no mark and does not change the weight of the last piece changes nothing. -/
theorem concat_weightless (weighs : Weighs weight mark sequence last largest) (plain : item ≠ mark)
    (same : weight (sequence.rtakeWhile (· ≠ mark) ++ [item]) = last) :
    Weighs weight mark (sequence ++ [item]) last largest := by
  have grown := weighs.concat_of_ne plain (Nat.le_refl last) same
  rwa [Nat.max_eq_left weighs.last_le_largest] at grown

/-- If pieces weigh as much as they are long, the largest weight is the length of the longest
stretch in which no mark stands. -/
theorem largest_stretch (weighs : Weighs List.length mark sequence last largest) :
    IsGreatest {length | ∃ stretch, stretch <:+: sequence ∧ mark ∉ stretch ∧
      stretch.length = length} largest := by
  constructor
  · obtain ⟨piece, member, length⟩ := weighs.largest.1
    obtain ⟨inside, noMark⟩ := stretch_of_mem_pieces member
    exact ⟨piece, inside, noMark, length⟩
  · rintro _ ⟨stretch, inside, noMark, rfl⟩
    obtain ⟨piece, member, within⟩ := exists_piece_of_stretch inside noMark
    exact Nat.le_trans within.length_le (weighs.largest.2 ⟨piece, member, rfl⟩)

end Weighs

end AccelProfile.Text
