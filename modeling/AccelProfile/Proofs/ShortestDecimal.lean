import AccelProfile.Proofs.NearestDouble

/-!
# The shortest decimal reads back

Whatever grid the search for the shortest decimal stops at, the point that it takes lies in
the span, and so does the value itself, which is what it falls back on. So the shortest
decimal of a double is among the numbers that read as the double, whichever way ties go.
-/

namespace AccelProfile.Decimal

theorem pow_toNat (base : ℚ) (nonzero : base ≠ 0) (power : Int) :
    base ^ power.toNat = base ^ power * base ^ (-power).toNat := by
  rw [← zpow_natCast, ← zpow_natCast, ← zpow_add₀ nonzero]
  congr 1
  omega

/-- A unit of a span in steps of a grid. -/
theorem Step.perUnit_eq (scale power : Int) :
    ((Step.of scale power).perUnit : ℚ) * 10 ^ power =
      2 ^ scale * (Step.of scale power).perStep := by
  have twos := pow_toNat 2 (by norm_num) scale
  have tens := pow_toNat 10 (by norm_num) (-power)
  rw [neg_neg, zpow_neg] at tens
  have nonzero : (10 : ℚ) ^ power ≠ 0 := ne_of_gt (zpow_pos (by norm_num) _)
  simp only [Step.of, Nat.pow_eq, Nat.cast_mul, Nat.cast_pow, Nat.cast_ofNat, twos, tens]
  field_simp

theorem Step.perStep_pos (scale power : Int) : 0 < (Step.of scale power).perStep :=
  Nat.mul_pos (Nat.pow_pos (by decide)) (Nat.pow_pos (by decide))

/-- A grid point is found to lie in a span exactly if it does. -/
theorem Span.holds_iff (span : Span) (power : Int) (count : Nat) :
    span.holds (Step.of span.scale power) count = true ↔
      span.Contains (Scaled.value ⟨count, power⟩) := by
  have unit := Step.perUnit_eq span.scale power
  have step : (0 : ℚ) < (Step.of span.scale power).perStep := by
    exact_mod_cast Step.perStep_pos span.scale power
  have ten : (0 : ℚ) < 10 ^ power := zpow_pos (by norm_num) _
  generalize Step.of span.scale power = grid at *
  -- both sides of a comparison, counted in the fraction of a step that is a fraction of a unit
  have ofEnd (bound : Nat) : (bound : ℚ) * 2 ^ span.scale * grid.perStep =
      (bound * grid.perUnit : Nat) * 10 ^ power := by
    push_cast
    rw [mul_assoc, ← unit]
    ring
  have ofPoint : (count : ℚ) * 10 ^ power * grid.perStep =
      (count * grid.perStep : Nat) * 10 ^ power := by
    push_cast
    ring
  have lowIff : (span.low : ℚ) * 2 ^ span.scale ≤ count * 10 ^ power ↔
      span.low * grid.perUnit ≤ count * grid.perStep := by
    rw [← mul_le_mul_iff_left₀ step, ofEnd, ofPoint, mul_le_mul_iff_left₀ ten, Nat.cast_le]
  have highIff : (count : ℚ) * 10 ^ power ≤ span.high * 2 ^ span.scale ↔
      count * grid.perStep ≤ span.high * grid.perUnit := by
    rw [← mul_le_mul_iff_left₀ step, ofEnd, ofPoint, mul_le_mul_iff_left₀ ten, Nat.cast_le]
  have lowStrict : (span.low : ℚ) * 2 ^ span.scale < count * 10 ^ power ↔
      span.low * grid.perUnit < count * grid.perStep := by
    rw [← mul_lt_mul_iff_left₀ step, ofEnd, ofPoint, mul_lt_mul_iff_left₀ ten, Nat.cast_lt]
  have highStrict : (count : ℚ) * 10 ^ power < span.high * 2 ^ span.scale ↔
      count * grid.perStep < span.high * grid.perUnit := by
    rw [← mul_lt_mul_iff_left₀ step, ofEnd, ofPoint, mul_lt_mul_iff_left₀ ten, Nat.cast_lt]
  rw [Span.holds, Span.Contains, Scaled.value]
  cases span.closed with
  | true => simp only [if_true, Bool.and_eq_true, decide_eq_true_eq, lowIff, highIff]
  | false =>
    simp only [Bool.false_eq_true, if_false, Bool.and_eq_true, decide_eq_true_eq, lowStrict,
      highStrict]

/-- What a grid offers lies in the span. -/
theorem Span.contains_of_onGrid {span : Span} {tie : Tie} {power : Int} {found : Scaled}
    (offered : span.onGrid tie power = some found) : span.Contains found.value := by
  have holds := span.holds_iff power
  rw [Span.onGrid] at offered
  generalize Step.of span.scale power = grid at *
  generalize span.value * grid.perUnit / grid.perStep = below at offered
  split at offered
  · next holdsBelow holdsAbove =>
    cases offered
    have near : span.nearer grid tie below = below ∨ span.nearer grid tie below = below + 1 := by
      simp only [Span.nearer]
      grind
    rcases near with isBelow | isAbove
    · rw [isBelow]
      exact (holds below).1 holdsBelow
    · rw [isAbove]
      exact (holds (below + 1)).1 holdsAbove
  · next holdsBelow _ =>
    cases offered
    exact (holds below).1 holdsBelow
  · next _ holdsAbove =>
    cases offered
    exact (holds (below + 1)).1 holdsAbove
  · cases offered

/-- All digits of the value make up the value. -/
theorem Span.exact_value (span : Span) : span.exact.value = span.value * 2 ^ span.scale := by
  rw [Span.exact]
  split
  · next whole =>
    have twos : (2 : ℚ) ^ span.scale.toNat = 2 ^ span.scale := by
      rw [← zpow_natCast, Int.toNat_of_nonneg whole]
    simp only [Scaled.value, Nat.pow_eq, zpow_zero, mul_one]
    push_cast
    rw [twos]
  · next fraction =>
    have fives : (5 : ℚ) ^ (-span.scale).toNat = (5 ^ span.scale)⁻¹ := by
      rw [← zpow_natCast, Int.toNat_of_nonneg (by omega), zpow_neg]
    have tens : (10 : ℚ) ^ span.scale = 5 ^ span.scale * 2 ^ span.scale := by
      rw [← mul_zpow]
      norm_num
    have nonzero : (5 : ℚ) ^ span.scale ≠ 0 := ne_of_gt (zpow_pos (by norm_num) _)
    simp only [Scaled.value, Nat.pow_eq]
    push_cast
    rw [fives, tens]
    field_simp

/-- The search ends in the span, if the value lies in it. -/
theorem Span.search_contains {span : Span} (own : span.Contains (span.value * 2 ^ span.scale))
    (tie : Tie) (grids : Nat) (power : Int) :
    span.Contains (span.search tie grids power).value := by
  induction grids generalizing power with
  | zero =>
    rw [Span.search, Span.exact_value]
    exact own
  | succ grids ih =>
    rw [Span.search]
    split
    · next found offered => exact Span.contains_of_onGrid offered
    · exact ih (power - 1)

end AccelProfile.Decimal

namespace AccelProfile.Double

open Decimal (Span Tie)

/-- The shortest decimal of a double lies in its span. -/
theorem contains_shortest (mantissa : Nat) (exponent : Int) (tie : Tie) :
    (Span.ofDouble mantissa exponent).Contains
      ((Span.ofDouble mantissa exponent).shortest tie).value := by
  apply Span.search_contains
  have value : ((Span.ofDouble mantissa exponent).value : ℚ) *
      2 ^ (Span.ofDouble mantissa exponent).scale = mantissa * 2 ^ exponent := by
    change ((4 * mantissa : Nat) : ℚ) * 2 ^ (exponent - 2) = _
    rw [zpow_sub₀ (by norm_num)]
    push_cast
    ring
  rw [value]
  exact contains_self

end AccelProfile.Double
