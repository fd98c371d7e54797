import Mathlib.Data.Rat.Cast.Order
import Mathlib.Tactic.FieldSimp
import Mathlib.Tactic.Linarith
import Mathlib.Tactic.NormNum
import Mathlib.Tactic.Positivity
import Mathlib.Tactic.Ring
import AccelProfile.Proofs.DoubleBits

/-!
# Rounding to doubles

Rounding starts from a mantissa and an exponent that may be too fine for a double, and two
bits that tell where the exact number lies between this mantissa and the next one. Shifting
the mantissa keeps the bits right, so the rounded mantissa is the whole number nearest to
the exact number in units of the last place.

A number in the span of a double rounds to that double. Two things can happen on the way:
either the number has as many places as the double, and rounds to its mantissa at once; or
the double is a power of two and the number lies below it, where the places are half as
wide, and the mantissa overflows when it is rounded.
-/

namespace AccelProfile

/-- Whether a number lies in a span. -/
def Decimal.Span.Contains (span : Span) (number : ℚ) : Prop :=
  let low := (span.low : ℚ) * 2 ^ span.scale
  let high := (span.high : ℚ) * 2 ^ span.scale
  if span.closed then low ≤ number ∧ number ≤ high else low < number ∧ number < high

namespace Double

open Decimal (Span)
open Float.Model (UnpackedFloat Format totalExponent)
open Float.Model.UnpackedFloat

/-- A mantissa with its two residual bits tells where a number lies: in which half of the
place of the mantissa, and whether at the start of that half. -/
structure Covers (mantissa : ExtendedMantissa) (number : ℚ) : Prop where
  lower : 2 * (mantissa.mantissa : ℚ) + mantissa.roundBit.toNat ≤ 2 * number
  upper : 2 * number < 2 * (mantissa.mantissa : ℚ) + mantissa.roundBit.toNat + 1
  sticky : mantissa.stickyBit = false ↔
    2 * number = 2 * (mantissa.mantissa : ℚ) + mantissa.roundBit.toNat

/-- Whether a number rounds to a whole number: the ends of the range round to the even
neighbour. -/
def RoundsTo (number : ℚ) (whole : Nat) : Prop :=
  2 * (whole : ℚ) - 1 ≤ 2 * number ∧ 2 * number ≤ 2 * whole + 1 ∧
    (whole % 2 = 0 ∨ 2 * (whole : ℚ) - 1 < 2 * number ∧ 2 * number < 2 * whole + 1)

/-- A step to the right halves the number. -/
theorem Covers.shiftRightOne {mantissa : ExtendedMantissa} {number : ℚ}
    (covers : Covers mantissa number) : Covers mantissa.shiftRightOne (number / 2) := by
  obtain ⟨whole, roundBit, stickyBit⟩ := mantissa
  obtain ⟨lower, upper, sticky⟩ := covers
  simp only at lower upper sticky
  have halves : (whole : ℚ) = 2 * (whole / 2 : Nat) + (whole % 2 : Nat) := by
    exact_mod_cast (Nat.div_add_mod whole 2).symm
  have bit : ((whole % 2 != 0).toNat : ℚ) = (whole % 2 : Nat) := by
    rcases Nat.mod_two_eq_zero_or_one whole with even | odd
    · simp [even]
    · simp [odd]
  cases roundBit with
  | false =>
    constructor <;>
    simp only [ExtendedMantissa.shiftRightOne, Bool.false_or, bit, Bool.toNat_false,
      Nat.cast_zero, add_zero] at *
    · linarith
    · linarith
    · rw [sticky]
      constructor <;> intro equal <;> linarith
  | true =>
    constructor <;>
    simp only [ExtendedMantissa.shiftRightOne, Bool.true_or, bit, Bool.toNat_true,
      Nat.cast_one] at *
    · linarith
    · linarith
    · constructor
      · intro absurd
        cases absurd
      · intro equal
        linarith

/-- Steps to the right divide the number by a power of two. -/
theorem Covers.shiftRight {mantissa : ExtendedMantissa} {number : ℚ}
    (covers : Covers mantissa number) (steps : Nat) :
    Covers (mantissa >>> steps) (number / 2 ^ steps) := by
  induction steps with
  | zero =>
    rw [pow_zero, div_one]
    exact covers
  | succ steps ih =>
    have step := ih.shiftRightOne
    rw [div_div, ← pow_succ] at step
    exact step

/-- The rounded mantissa is the whole number that the number rounds to. -/
theorem Covers.roundedMantissa_eq {mantissa : ExtendedMantissa} {number : ℚ} {whole : Nat}
    (covers : Covers mantissa number) (rounds : RoundsTo number whole) :
    mantissa.roundedMantissa = whole := by
  obtain ⟨below, roundBit, stickyBit⟩ := mantissa
  obtain ⟨lower, upper, sticky⟩ := covers
  obtain ⟨above, within, ends⟩ := rounds
  simp only at lower upper sticky
  cases roundBit with
  | false =>
    -- the number is nearer to the mantissa below it
    simp only [Bool.toNat_false, Nat.cast_zero, add_zero] at lower upper
    have notLess : below ≤ whole := by
      have : (below : ℚ) < whole + 1 := by linarith
      exact Nat.lt_succ_iff.1 (by exact_mod_cast this)
    have notMore : whole ≤ below := by
      have : (whole : ℚ) < below + 1 := by linarith
      exact Nat.lt_succ_iff.1 (by exact_mod_cast this)
    have same : below = whole := Nat.le_antisymm notLess notMore
    cases stickyBit with
    | false => exact same
    | true => exact same
  | true =>
    simp only [Bool.toNat_true, Nat.cast_one] at lower upper sticky
    have notLess : below ≤ whole := by
      have : (below : ℚ) ≤ whole := by linarith
      exact_mod_cast this
    have notMore : whole ≤ below + 1 := by
      have : (whole : ℚ) < (below + 1 : Nat) + 1 := by
        push_cast
        linarith
      exact Nat.lt_succ_iff.1 (by exact_mod_cast this)
    cases stickyBit with
    | false =>
      -- the number is halfway between two neighbours, so it rounds to the even one
      have middle : 2 * number = 2 * (below : ℚ) + 1 := sticky.1 rfl
      have even : whole % 2 = 0 := by
        rcases ends with even | ⟨strictAbove, strictWithin⟩
        · exact even
        · exfalso
          have less : (below : ℚ) < whole := by linarith
          have more : (whole : ℚ) < (below + 1 : Nat) := by
            push_cast
            linarith
          have : below < whole := by exact_mod_cast less
          have : whole < below + 1 := by exact_mod_cast more
          omega
      change below + below % 2 = whole
      omega
    | true =>
      have strict : ¬ 2 * number = 2 * (below : ℚ) + 1 := fun equal => by
        cases sticky.2 equal
      have more : below < whole := by
        have : (below : ℚ) < whole := by
          rcases lt_or_eq_of_le lower with less | equal
          · linarith
          · exact absurd equal.symm strict
        exact_mod_cast this
      change below + 1 = whole
      omega

/-- The exponent that a mantissa is shifted to. -/
theorem targetExponent_eq (mantissa : Nat) (exponent : Int) :
    Format.binary64.targetExponent (totalExponent mantissa exponent) =
      max (mantissa.log2 + exponent - 52) (-1074) := by
  have lowest : Format.binary64.minExponent = -1074 := rfl
  have width : (Format.binary64.mantissaBits : Int) = 53 := rfl
  rw [Format.targetExponent, totalExponent, lowest, width]
  omega

/-- A mantissa is not finer than its target exponent needs, so it has all the bits that
decide how the number is rounded. -/
def FineEnough (mantissa : Nat) (exponent : Int) : Prop :=
  exponent ≤ max (mantissa.log2 + exponent - 52) (-1074)

/-- A canonical mantissa is where it is to be shifted to. -/
theorem Canonical.target_eq {mantissa : Nat} {exponent : Int}
    (canonical : Canonical mantissa exponent) :
    max ((mantissa.log2 : Int) + exponent - 52) (-1074) = exponent := by
  have nonzero : mantissa ≠ 0 := Nat.ne_of_gt canonical.positive
  have bits : mantissa.log2 < 53 := (Nat.log2_lt nonzero).2 canonical.fits
  have lowest := canonical.lowest
  rcases canonical.filled with leading | isLowest
  · have : 52 ≤ mantissa.log2 := (Nat.le_log2 nonzero).2 leading
    omega
  · omega

section Spans

variable {mantissa : Nat} {exponent : Int} {number : ℚ}

/-- The span of a double in units of its last place. -/
theorem contains_ofDouble_iff :
    (Span.ofDouble mantissa exponent).Contains number ↔
      if mantissa % 2 = 0 then
        ((Span.ofDouble mantissa exponent).low : ℚ) ≤ 4 * (number / 2 ^ exponent) ∧
          4 * (number / 2 ^ exponent) ≤ 4 * mantissa + 2
      else
        ((Span.ofDouble mantissa exponent).low : ℚ) < 4 * (number / 2 ^ exponent) ∧
          4 * (number / 2 ^ exponent) < 4 * mantissa + 2 := by
  have unit : (0 : ℚ) < 2 ^ (exponent - 2) := zpow_pos (by norm_num) _
  have whole : (2 : ℚ) ^ exponent = 2 ^ (exponent - 2) * 4 := by
    rw [← Int.sub_add_cancel exponent 2, zpow_add₀ (by norm_num), Int.sub_add_cancel]
    norm_num
  have places : 4 * (number / 2 ^ exponent) = number / 2 ^ (exponent - 2) := by
    rw [whole]
    field_simp
  have high : ((Span.ofDouble mantissa exponent).high : ℚ) = 4 * mantissa + 2 := by
    simp [Span.ofDouble]
  have scale : (Span.ofDouble mantissa exponent).scale = exponent - 2 := rfl
  have closed : (Span.ofDouble mantissa exponent).closed = decide (mantissa % 2 = 0) := rfl
  simp only [Span.Contains, places, scale, closed, high, decide_eq_true_eq, le_div_iff₀ unit,
    div_le_iff₀ unit, lt_div_iff₀ unit, div_lt_iff₀ unit]

/-- The number of last places that a double has is the number rounded. -/
theorem roundsTo_of_contains (positive : 0 < mantissa)
    (inside : (Span.ofDouble mantissa exponent).Contains number) :
    RoundsTo (number / 2 ^ exponent) mantissa := by
  have low : 4 * (mantissa : ℚ) - 2 ≤ ((Span.ofDouble mantissa exponent).low : ℚ) := by
    have : 4 * mantissa ≤ (Span.ofDouble mantissa exponent).low + 2 := by
      simp only [Span.ofDouble]
      split <;> omega
    have cast : ((4 * mantissa : Nat) : ℚ) ≤ ((Span.ofDouble mantissa exponent).low + 2 : Nat) := by
      exact_mod_cast this
    push_cast at cast
    linarith
  rw [contains_ofDouble_iff] at inside
  by_cases even : mantissa % 2 = 0
  · simp only [even, if_true] at inside
    exact ⟨by linarith, by linarith, .inl even⟩
  · simp only [even, if_false] at inside
    exact ⟨by linarith, by linarith, .inr ⟨by linarith, by linarith⟩⟩

/-- Above the lowest exponent, a number in the span of a double is at most a quarter of a
place below a power of two. -/
theorem le_of_contains (canonical : Canonical mantissa exponent) (above : -1074 < exponent)
    (inside : (Span.ofDouble mantissa exponent).Contains number) :
    (2 : ℚ) ^ 54 - 1 ≤ 4 * (number / 2 ^ exponent) := by
  have leading : 2 ^ 52 ≤ mantissa := canonical.filled.resolve_right (by omega)
  have low : (2 : ℚ) ^ 54 - 1 ≤ ((Span.ofDouble mantissa exponent).low : ℚ) := by
    have : 2 ^ 54 ≤ (Span.ofDouble mantissa exponent).low + 1 := by
      simp only [Span.ofDouble]
      split <;> omega
    have cast : ((2 ^ 54 : Nat) : ℚ) ≤ ((Span.ofDouble mantissa exponent).low + 1 : Nat) := by
      exact_mod_cast this
    push_cast at cast
    linarith
  rw [contains_ofDouble_iff] at inside
  split at inside <;> linarith

end Spans

/-- A mantissa that covers a number lies at most one place below it. -/
theorem Covers.bounds {mantissa : Nat} {accuracy : Accuracy} {number : ℚ}
    (covers : Covers (ExtendedMantissa.ofMantissaAndAccuracy mantissa accuracy) number) :
    (mantissa : ℚ) ≤ number ∧ number < mantissa + 1 := by
  obtain ⟨lower, upper, -⟩ := covers
  have whole : (ExtendedMantissa.ofMantissaAndAccuracy mantissa accuracy).mantissa = mantissa := by
    cases accuracy with
    | exact => rfl
    | inexact half => cases half <;> rfl
  rw [whole] at lower upper
  generalize (ExtendedMantissa.ofMantissaAndAccuracy mantissa accuracy).roundBit = bit
    at lower upper
  have bitBounds : (0 : ℚ) ≤ (bit.toNat : ℚ) ∧ (bit.toNat : ℚ) ≤ 1 := by
    cases bit <;> simp
  constructor <;> linarith

section Rounding

variable {mantissa : Nat} {exponent : Int} {number : ℚ}
variable {coarse : Nat} {fine : Int} {accuracy : Accuracy}

/-- A number is below the power of two that its target exponent leads to. -/
theorem lt_pow_target
    (covers : Covers (ExtendedMantissa.ofMantissaAndAccuracy coarse accuracy) (number / 2 ^ fine))
    {target : Int} (isTarget : max ((coarse.log2 : Int) + fine - 52) (-1074) = target) :
    number < 2 ^ (target + 53) := by
  have unit : (0 : ℚ) < 2 ^ fine := zpow_pos (by norm_num) _
  have whole : (coarse : ℚ) + 1 ≤ 2 ^ (coarse.log2 + 1) := by
    exact_mod_cast Nat.lt_log2_self
  have below : number / 2 ^ fine < 2 ^ ((coarse.log2 + 1 : Nat) : Int) := by
    rw [zpow_natCast]
    exact lt_of_lt_of_le covers.bounds.2 whole
  calc number < 2 ^ ((coarse.log2 + 1 : Nat) : Int) * 2 ^ fine := (div_lt_iff₀ unit).1 below
    _ = 2 ^ (((coarse.log2 + 1 : Nat) : Int) + fine) := (zpow_add₀ (by norm_num) _ _).symm
    _ ≤ 2 ^ (target + 53) := by
      apply zpow_le_zpow_right₀ (by norm_num)
      push_cast
      omega

/-- A number whose target exponent is not the lowest one has all its leading bits. -/
theorem pow_target_le
    (covers : Covers (ExtendedMantissa.ofMantissaAndAccuracy coarse accuracy) (number / 2 ^ fine))
    (enough : FineEnough coarse fine) {target : Int}
    (isTarget : max ((coarse.log2 : Int) + fine - 52) (-1074) = target) (above : -1074 < target) :
    2 ^ (target + 52) ≤ number := by
  have unit : (0 : ℚ) < 2 ^ fine := zpow_pos (by norm_num) _
  have nonzero : coarse ≠ 0 := by
    rintro rfl
    simp only [FineEnough, Nat.log2_zero] at enough isTarget
    omega
  have whole : (2 : ℚ) ^ (coarse.log2 : Int) ≤ coarse := by
    rw [zpow_natCast]
    exact_mod_cast Nat.log2_self_le nonzero
  have exponents : target + 52 = coarse.log2 + fine := by omega
  rw [exponents, zpow_add₀ (by norm_num), ← le_div_iff₀ unit]
  exact le_trans whole covers.bounds.1

/-- A number in the span of a double has the exponent of the double, unless the double is a
power of two and the number lies below it. -/
theorem target_of_contains (canonical : Canonical mantissa exponent)
    (inside : (Span.ofDouble mantissa exponent).Contains number)
    (covers : Covers (ExtendedMantissa.ofMantissaAndAccuracy coarse accuracy) (number / 2 ^ fine))
    (enough : FineEnough coarse fine) {target : Int}
    (isTarget : max ((coarse.log2 : Int) + fine - 52) (-1074) = target) :
    target = exponent ∨
      target = exponent - 1 ∧ -1074 < exponent ∧ mantissa = 2 ^ 52 ∧
        number / 2 ^ exponent < 2 ^ 52 := by
  have unit : (0 : ℚ) < 2 ^ exponent := zpow_pos (by norm_num) _
  obtain ⟨atLeast, atMost, -⟩ := roundsTo_of_contains canonical.positive inside
  have lowest := canonical.lowest
  have fits : (mantissa : ℚ) + 1 ≤ 2 ^ 53 := by exact_mod_cast canonical.fits
  have notAbove : target ≤ exponent := by
    by_contra larger
    have leading := pow_target_le covers enough isTarget (by omega)
    have power : (2 : ℚ) ^ (53 + exponent) ≤ 2 ^ (target + 52) :=
      zpow_le_zpow_right₀ (by norm_num) (by omega)
    rw [zpow_add₀ (by norm_num)] at power
    have large : (2 : ℚ) ^ (53 : Int) ≤ number / 2 ^ exponent :=
      (le_div_iff₀ unit).2 (le_trans power leading)
    norm_num at large fits
    linarith
  rcases Int.lt_or_eq_of_le notAbove with less | equal
  · right
    have above : -1074 < exponent := by omega
    have leading : 2 ^ 52 ≤ mantissa := canonical.filled.resolve_right (by omega)
    have nearPower := le_of_contains canonical above inside
    have upper := lt_pow_target covers isTarget
    have near : exponent - 1 ≤ target := by
      by_contra smaller
      have power : (2 : ℚ) ^ (target + 53) ≤ 2 ^ (51 + exponent) :=
        zpow_le_zpow_right₀ (by norm_num) (by omega)
      rw [zpow_add₀ (by norm_num) 51] at power
      have small : number / 2 ^ exponent < 2 ^ (51 : Int) :=
        (div_lt_iff₀ unit).2 (lt_of_lt_of_le upper power)
      norm_num at small nearPower
      linarith
    have isNear : target = exponent - 1 := by omega
    have below : number / 2 ^ exponent < 2 ^ 52 := by
      have exponents : target + 53 = 52 + exponent := by omega
      rw [exponents, zpow_add₀ (by norm_num)] at upper
      exact_mod_cast (div_lt_iff₀ unit).2 upper
    have isPower : mantissa ≤ 2 ^ 52 := by
      have : (mantissa : ℚ) < (2 ^ 52 : Nat) + 1 := by
        push_cast
        linarith
      exact Nat.lt_succ_iff.1 (by exact_mod_cast this)
    exact ⟨isNear, above, Nat.le_antisymm isPower leading, below⟩
  · exact .inl equal

/-- Shifting to a target exponent that is not below the exponent reaches it. -/
theorem shiftToTargetExponent_eq (accuracy : Accuracy) {target : Int}
    (isTarget : max ((coarse.log2 : Int) + fine - 52) (-1074) = target) (below : fine ≤ target) :
    shiftToTargetExponent Format.binary64 coarse fine accuracy =
      (ExtendedMantissa.ofMantissaAndAccuracy coarse accuracy >>> (target - fine).toNat,
        target) := by
  have reached : fine + ((target - fine).toNat : Int) = target := by omega
  simp only [shiftToTargetExponent, shiftToExponent, targetExponent_eq, isTarget, reached]

/-- What rounding gives, from what its two shifts give. -/
theorem roundWithAccuracy_of_shifts (sign : Sign) {first second : ExtendedMantissa × Int}
    (isFirst : shiftToTargetExponent Format.binary64 coarse fine accuracy = first)
    (isSecond : shiftToTargetExponent Format.binary64 first.1.roundedMantissa first.2 .exact =
      second)
    (positive : 0 < second.1.mantissa) :
    roundWithAccuracy Format.binary64 sign coarse fine accuracy =
      .finite sign second.1.mantissa second.2 positive := by
  subst isFirst isSecond
  exact dif_neg (Nat.ne_of_gt positive)

/-- A number in the span of a double rounds to the double. -/
theorem roundWithAccuracy_eq (sign : Sign) (canonical : Canonical mantissa exponent)
    (inside : (Span.ofDouble mantissa exponent).Contains number)
    (covers : Covers (ExtendedMantissa.ofMantissaAndAccuracy coarse accuracy) (number / 2 ^ fine))
    (enough : FineEnough coarse fine) :
    roundWithAccuracy Format.binary64 sign coarse fine accuracy =
      .finite sign mantissa exponent canonical.positive := by
  obtain ⟨target, isTarget⟩ : ∃ target, max ((coarse.log2 : Int) + fine - 52) (-1074) = target :=
    ⟨_, rfl⟩
  have below : fine ≤ target := isTarget ▸ enough
  have isFirst := shiftToTargetExponent_eq accuracy isTarget below
  have shifted := covers.shiftRight (target - fine).toNat
  have scaled : number / 2 ^ fine / 2 ^ (target - fine).toNat = number / 2 ^ target := by
    have reached : fine + ((target - fine).toNat : Int) = target := by omega
    rw [div_div, ← zpow_natCast, ← zpow_add₀ (by norm_num), reached]
  rw [scaled] at shifted
  rcases target_of_contains canonical inside covers enough isTarget with
    rfl | ⟨rfl, above, rfl, small⟩
  · -- the mantissa has its place already, so the second shift does nothing
    have rounded := shifted.roundedMantissa_eq (roundsTo_of_contains canonical.positive inside)
    have isSecond := shiftToTargetExponent_eq .exact canonical.target_eq (le_refl _)
    rw [sub_self] at isSecond
    rw [← rounded] at isSecond
    subst rounded
    exact roundWithAccuracy_of_shifts sign isFirst isSecond canonical.positive
  · -- the mantissa overflows to the next power of two, and the second shift takes one place
    have half : number / 2 ^ (exponent - 1) = 2 * (number / 2 ^ exponent) := by
      rw [zpow_sub_one₀ (by norm_num)]
      field_simp
    have rounds : RoundsTo (number / 2 ^ (exponent - 1)) (2 ^ 53) := by
      have near := le_of_contains canonical above inside
      rw [half]
      refine ⟨?_, ?_, .inl (by decide)⟩
      · push_cast
        linarith
      · push_cast
        linarith
    have rounded := shifted.roundedMantissa_eq rounds
    have isTarget : max (((2 ^ 53 : Nat).log2 : Int) + (exponent - 1) - 52) (-1074) = exponent := by
      rw [Nat.log2_two_pow]
      omega
    have isSecond := shiftToTargetExponent_eq .exact isTarget (by omega)
    have one : (exponent - (exponent - 1)).toNat = 1 := by omega
    have halved : ExtendedMantissa.ofMantissaAndAccuracy (2 ^ 53) .exact >>> 1 =
        ⟨2 ^ 52, false, false⟩ := rfl
    rw [one, halved, ← rounded] at isSecond
    exact roundWithAccuracy_of_shifts sign isFirst isSecond canonical.positive

end Rounding

end Double

end AccelProfile
