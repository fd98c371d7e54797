import AccelProfile.Proofs.FiniteNumbers

/-!
# The order of doubles

Of two numbers the smaller one does not round to the larger double: where their spans meet, they
meet in one point. A double is at most another one exactly as its exponent and, where these are
equal, its mantissa are. So a quotient of two counts of which the first is not the larger one is at
most one, although each of the counts and their quotient are rounded.
-/

namespace AccelProfile

open Float.Model (UnpackedFloat Format)

namespace Double

open Decimal (Span Scaled)
open Float.Model.UnpackedFloat

section Order

variable {mantissa otherMantissa : Nat} {exponent otherExponent : Int} {number other : ℚ}

/-- The parts of two doubles ascend: the exponents do, or else the mantissas. -/
def Ascend (mantissa : Nat) (exponent : Int) (otherMantissa : Nat) (otherExponent : Int) : Prop :=
  exponent < otherExponent ∨ exponent = otherExponent ∧ mantissa ≤ otherMantissa

/-- The smaller one of two numbers does not round to the larger double. -/
theorem ascend_of_lt (canonical : Canonical mantissa exponent)
    (otherCanonical : Canonical otherMantissa otherExponent)
    (inside : (Span.ofDouble mantissa exponent).Contains number)
    (otherInside : (Span.ofDouble otherMantissa otherExponent).Contains other)
    (less : number < other) : Ascend mantissa exponent otherMantissa otherExponent := by
  have unit : (0 : ℚ) < 2 ^ exponent := zpow_pos (by norm_num) _
  have otherUnit : (0 : ℚ) < 2 ^ otherExponent := zpow_pos (by norm_num) _
  obtain ⟨lower, -⟩ := roundsTo_of_contains canonical.positive inside
  obtain ⟨-, upper, -⟩ := roundsTo_of_contains otherCanonical.positive otherInside
  by_contra descend
  simp only [Ascend, not_or, not_and, not_lt, not_le] at descend
  rcases Int.lt_or_eq_of_le descend.1 with below | rfl
  · -- the first double has all its leading bits, and places that are twice as wide at least
    have leading := le_of_contains canonical (by have := otherCanonical.lowest; omega) inside
    have fits : (otherMantissa : ℚ) + 1 ≤ 2 ^ 53 := by exact_mod_cast otherCanonical.fits
    have wider : 2 * (2 : ℚ) ^ otherExponent ≤ 2 ^ exponent := by
      rw [← zpow_one_add₀ (by norm_num)]
      exact zpow_le_zpow_right₀ (by norm_num) (by omega)
    have above : (2 ^ 54 - 1) / 4 * 2 ^ exponent ≤ number :=
      (le_div_iff₀ unit).1 (by linarith)
    have below : other ≤ (2 ^ 54 - 1) / 2 * 2 ^ otherExponent :=
      (div_le_iff₀ otherUnit).1 (by linarith)
    have scaled := mul_le_mul_of_nonneg_left wider (show (0 : ℚ) ≤ (2 ^ 54 - 1) / 4 by norm_num)
    linarith
  · have next : (otherMantissa : ℚ) + 1 ≤ mantissa := by exact_mod_cast descend.2 rfl
    have order : other / 2 ^ otherExponent ≤ number / 2 ^ otherExponent := by linarith
    exact absurd ((div_le_div_iff_of_pos_right unit).1 order) (not_le_of_gt less)

/-- The values of doubles ascend with their parts. -/
theorem value_le_of_ascend (canonical : Canonical mantissa exponent)
    (otherCanonical : Canonical otherMantissa otherExponent)
    (ascend : Ascend mantissa exponent otherMantissa otherExponent) :
    (mantissa : ℚ) * 2 ^ exponent ≤ otherMantissa * 2 ^ otherExponent := by
  have unit : (0 : ℚ) < 2 ^ exponent := zpow_pos (by norm_num) _
  rcases ascend with below | ⟨rfl, smaller⟩
  · have leading : 2 ^ 52 ≤ otherMantissa :=
      otherCanonical.filled.resolve_right (by have := canonical.lowest; omega)
    have fits : (mantissa : ℚ) ≤ 2 ^ 53 := by exact_mod_cast Nat.le_of_lt canonical.fits
    have wider : 2 * (2 : ℚ) ^ exponent ≤ 2 ^ otherExponent := by
      rw [← zpow_one_add₀ (by norm_num)]
      exact zpow_le_zpow_right₀ (by norm_num) (by omega)
    calc (mantissa : ℚ) * 2 ^ exponent ≤ 2 ^ 53 * 2 ^ exponent :=
          mul_le_mul_of_nonneg_right fits unit.le
      _ = 2 ^ 52 * (2 * 2 ^ exponent) := by ring
      _ ≤ otherMantissa * 2 ^ otherExponent :=
          mul_le_mul (by exact_mod_cast leading) wider (by positivity) (by positivity)
  · exact mul_le_mul_of_nonneg_right (by exact_mod_cast smaller) unit.le

theorem le_iff_unpack (left right : Float) :
    left ≤ right ↔ left.toModel.unpack.le right.toModel.unpack = true := by
  change left.le right = true ↔ _
  rw [Float.le, decide_eq_true_iff]
  rfl

/-- Doubles whose parts ascend are in order. -/
theorem ofParts_le_of_ascend (canonical : Canonical mantissa exponent)
    (otherCanonical : Canonical otherMantissa otherExponent)
    (ascend : Ascend mantissa exponent otherMantissa otherExponent) :
    ofParts (.finite .positive mantissa exponent canonical.positive) ≤
      ofParts (.finite .positive otherMantissa otherExponent otherCanonical.positive) := by
  rw [le_iff_unpack]
  change UnpackedFloat.le (Float.Model.pack _).unpack (Float.Model.pack _).unpack = true
  rw [unpack_pack canonical.positive canonical, unpack_pack otherCanonical.positive otherCanonical]
  simp only [UnpackedFloat.le, UnpackedFloat.compare, Option.any_some]
  rcases ascend with below | ⟨rfl, smaller⟩
  · rw [Int.compare_eq_lt.2 below]
    rfl
  · rw [Int.compare_eq_eq.2 rfl, Ordering.eq_then]
    exact Nat.isLE_compare.2 smaller

end Order

/-- A count that fits a word is, as a double, one whose span it lies in. -/
theorem exists_toFloat {n : Nat} (positive : 0 < n) (small : n ≤ maxWord) :
    ∃ mantissa exponent, ∃ canonical : Canonical mantissa exponent,
      (Span.ofDouble mantissa exponent).Contains (n : ℚ) ∧
        n.toFloat = ofParts (.finite .positive mantissa exponent canonical.positive) := by
  have bits : n.log2 < 64 := (Nat.log2_lt (Nat.ne_of_gt positive)).2 (by
    rw [maxWord] at small
    omega)
  obtain ⟨mantissa, exponent, canonical, inside⟩ := exists_contains positive (by omega)
  refine ⟨mantissa, exponent, canonical, inside, ?_⟩
  have value : Scaled.value ⟨n, 0⟩ = n := by simp [Scaled.value]
  exact ofScientific_magnitude canonical (value ▸ inside)

/-- One is a double. -/
theorem canonical_one : Canonical (2 ^ 52) (-52) :=
  ⟨by decide, by decide, by decide, by decide, .inl le_rfl⟩

theorem one_eq_ofParts : (1 : Float) = ofParts (.finite .positive (2 ^ 52) (-52) (by decide)) :=
  rfl

section Quotient

variable {mantissa otherMantissa : Nat} {exponent otherExponent : Int}

/-- The quotient of two doubles whose values are in order, and of moderate size, is at most one. -/
theorem div_le_one (canonical : Canonical mantissa exponent)
    (otherCanonical : Canonical otherMantissa otherExponent)
    (ordered : (mantissa : ℚ) * 2 ^ exponent ≤ otherMantissa * 2 ^ otherExponent)
    (notTiny : 1 / 2 ≤ (mantissa : ℚ) * 2 ^ exponent)
    (notHuge : (otherMantissa : ℚ) * 2 ^ otherExponent ≤ 2 ^ 64) :
    ofParts (.finite .positive mantissa exponent canonical.positive) /
      ofParts (.finite .positive otherMantissa otherExponent otherCanonical.positive) ≤ 1 := by
  obtain ⟨quotient, isQuotient⟩ : ∃ quotient,
      (mantissa : ℚ) * 2 ^ exponent / (otherMantissa * 2 ^ otherExponent) = quotient := ⟨_, rfl⟩
  have positive : (0 : ℚ) < otherMantissa * 2 ^ otherExponent :=
    mul_pos (by exact_mod_cast otherCanonical.positive) (zpow_pos (by norm_num) _)
  have atMost : quotient ≤ 1 := isQuotient ▸ (div_le_one₀ positive).2 ordered
  have rounds {whole : Nat} {power : Int} (parts : Canonical whole power)
      (inside : (Span.ofDouble whole power).Contains quotient) :
      ofParts (.finite .positive mantissa exponent canonical.positive) /
        ofParts (.finite .positive otherMantissa otherExponent otherCanonical.positive) =
      ofParts (.finite .positive whole power parts.positive) := by
    change ofParts (UnpackedFloat.div Format.binary64 (Float.Model.pack _).unpack
      (Float.Model.pack _).unpack) = _
    rw [unpack_pack canonical.positive canonical,
      unpack_pack otherCanonical.positive otherCanonical,
      div_finite parts canonical.positive otherCanonical.positive (isQuotient ▸ inside)]
    rfl
  have ownOne : (Span.ofDouble (2 ^ 52) (-52)).Contains (1 : ℚ) := by
    have own : (Span.ofDouble (2 ^ 52) (-52)).Contains (((2 ^ 52 : Nat) : ℚ) * 2 ^ (-52 : Int)) :=
      contains_self
    have same : ((2 ^ 52 : Nat) : ℚ) * 2 ^ (-52 : Int) = 1 := by norm_num
    rwa [same] at own
  rw [one_eq_ofParts]
  rcases lt_or_eq_of_le atMost with less | rfl
  · have normal : 2 ^ (-1022 : Int) ≤ quotient :=
      calc (2 : ℚ) ^ (-1022 : Int) ≤ 2 ^ (-65 : Int) :=
            zpow_le_zpow_right₀ (by norm_num) (by norm_num)
        _ = 1 / 2 / 2 ^ 64 := by norm_num
        _ ≤ quotient := isQuotient ▸ div_le_div₀ (by positivity) notTiny positive notHuge
    have below : quotient < 2 ^ (1023 : Int) :=
      lt_trans less (one_lt_zpow₀ (by norm_num) (by norm_num))
    obtain ⟨whole, power, parts, inside⟩ := exists_contains_of_normal normal below
    rw [rounds parts inside]
    exact ofParts_le_of_ascend parts canonical_one
      (ascend_of_lt parts canonical_one inside ownOne less)
  · rw [rounds canonical_one ownOne]
    exact ofParts_le_of_ascend canonical_one canonical_one (.inr ⟨rfl, le_rfl⟩)

end Quotient

/-- The value of the double of a count is neither very small nor very large. -/
theorem bounds_of_count {n mantissa : Nat} {exponent : Int} (positive : 0 < n) (small : n ≤ maxWord)
    (canonical : Canonical mantissa exponent)
    (inside : (Span.ofDouble mantissa exponent).Contains (n : ℚ)) :
    1 / 2 ≤ (mantissa : ℚ) * 2 ^ exponent ∧ (mantissa : ℚ) * 2 ^ exponent ≤ 2 ^ 64 := by
  have half : Canonical (2 ^ 52) (-53) := ⟨by decide, by decide, by decide, by decide, .inl le_rfl⟩
  have large : Canonical (2 ^ 52) 12 := ⟨by decide, by decide, by decide, by decide, .inl le_rfl⟩
  have atLeast : (1 : ℚ) ≤ n := by exact_mod_cast positive
  have atMost : (n : ℚ) < ((2 ^ 52 : Nat) : ℚ) * 2 ^ (12 : Int) := by
    have fits : n < 2 ^ 64 := Nat.lt_of_le_of_lt small (by decide)
    norm_num
    exact_mod_cast fits
  have above := value_le_of_ascend half canonical
    (ascend_of_lt half canonical contains_self inside (lt_of_lt_of_le (by norm_num) atLeast))
  have below := value_le_of_ascend canonical large
    (ascend_of_lt canonical large inside contains_self atMost)
  norm_num at above below ⊢
  exact ⟨above, below⟩

end Double

/-- A part over a whole that it does not exceed is at most one, although both are rounded to doubles
and their quotient is again. -/
theorem ratio_le_one {part whole : Nat} (within : part ≤ whole) (small : whole ≤ maxWord) :
    ratio part whole ≤ 1 := by
  have zero : (0 : Float) ≤ 1 := (Double.le_iff_unpack 0 1).2 rfl
  rw [ratio]
  split
  · exact zero
  · next nonzero =>
    have wholePositive : 0 < whole := Nat.pos_of_ne_zero nonzero
    obtain ⟨mantissa, exponent, canonical, inside, isWhole⟩ :=
      Double.exists_toFloat wholePositive small
    have bounds := Double.bounds_of_count wholePositive small canonical inside
    rcases Nat.eq_zero_or_pos part with rfl | positive
    · have nothing : (0 : Nat).toFloat / whole.toFloat = 0 := by
        rw [isWhole]
        change Double.ofParts (UnpackedFloat.div _ _ (Float.Model.pack _).unpack) = _
        rw [Double.unpack_pack canonical.positive canonical]
        rfl
      rw [nothing]
      exact zero
    · rw [isWhole]
      rcases Nat.lt_or_eq_of_le within with less | rfl
      · have partSmall : part ≤ maxWord := Nat.le_trans within small
        obtain ⟨partMantissa, partExponent, partCanonical, partInside, isPart⟩ :=
          Double.exists_toFloat positive partSmall
        have partBounds := Double.bounds_of_count positive partSmall partCanonical partInside
        have ascend := Double.ascend_of_lt partCanonical canonical partInside inside
          (by exact_mod_cast less)
        rw [isPart]
        exact Double.div_le_one partCanonical canonical
          (Double.value_le_of_ascend partCanonical canonical ascend) partBounds.1 bounds.2
      · rw [isWhole]
        exact Double.div_le_one canonical canonical le_rfl bounds.1 bounds.2

end AccelProfile
