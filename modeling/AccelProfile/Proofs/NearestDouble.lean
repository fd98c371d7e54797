import AccelProfile.Proofs.DoubleRounding

/-!
# The double nearest to a decimal number

A decimal number in the span of a double reads as that double. Reading multiplies or divides
by a power of ten, and rounds once. Numbers of few digits take a short way: the digits and
the power of ten are both doubles then, and it is the product or quotient of two doubles
that is rounded. Either way the mantissa that is rounded has bits enough, and the residual
bits tell what is left over.
-/

namespace AccelProfile

/-- The number that a decimal stands for. -/
def Decimal.Scaled.value (number : Scaled) : ℚ :=
  number.coefficient * 10 ^ number.power

namespace Double

open Decimal (Span Scaled)
open Float.Model (UnpackedFloat Format totalExponent)
open Float.Model.UnpackedFloat

/-- A mantissa without a remainder covers itself. -/
theorem covers_exact (mantissa : Nat) :
    Covers (ExtendedMantissa.ofMantissaAndAccuracy mantissa .exact) mantissa := by
  constructor <;> simp [ExtendedMantissa.ofMantissaAndAccuracy]

/-- A quotient with its remainder covers the fraction. -/
theorem covers_quotient (part : Nat) {whole : Nat} (positive : 0 < whole) :
    Covers (ExtendedMantissa.ofMantissaAndAccuracy (part / whole)
      (accuracyOfFraction (part % whole) whole)) (part / whole : ℚ) := by
  have split : (part : ℚ) = whole * (part / whole : Nat) + (part % whole : Nat) := by
    exact_mod_cast (Nat.div_add_mod part whole).symm
  have small : ((part % whole : Nat) : ℚ) < whole := by
    exact_mod_cast Nat.mod_lt part positive
  have denominator : (0 : ℚ) < whole := by exact_mod_cast positive
  generalize part / whole = quotient at *
  generalize part % whole = rest at *
  -- the rest in halves of the place
  obtain ⟨halves, isHalves⟩ : ∃ halves : ℚ, halves = 2 * rest / whole := ⟨_, rfl⟩
  have doubled : 2 * ((part : ℚ) / whole) = 2 * quotient + halves := by
    rw [split, isHalves]
    field_simp
  have nonnegative : 0 ≤ halves := by
    rw [isHalves]
    positivity
  have belowTwo : halves < 2 := by
    rw [isHalves, div_lt_iff₀ denominator]
    linarith
  rw [accuracyOfFraction]
  by_cases exact : rest = 0
  · have none : halves = 0 := by
      rw [isHalves, exact]
      simp
    rw [if_pos exact]
    constructor <;> simp [ExtendedMantissa.ofMantissaAndAccuracy, doubled, none]
  · have positiveRest : (0 : ℚ) < rest := by exact_mod_cast Nat.pos_of_ne_zero exact
    have some : 0 < halves := by
      rw [isHalves]
      positivity
    rw [if_neg exact]
    cases order : compare (2 * rest) whole with
    | lt =>
      have less : halves < 1 := by
        have : 2 * (rest : ℚ) < whole := by exact_mod_cast Nat.compare_eq_lt.1 order
        rw [isHalves, div_lt_one denominator]
        exact this
      constructor <;> simp only [ExtendedMantissa.ofMantissaAndAccuracy, doubled,
        Bool.toNat_false, Nat.cast_zero, add_zero]
      · linarith
      · linarith
      · constructor
        · intro absurd
          cases absurd
        · intro equal
          linarith
    | eq =>
      have one : halves = 1 := by
        have : 2 * (rest : ℚ) = whole := by exact_mod_cast Nat.compare_eq_eq.1 order
        rw [isHalves, div_eq_one_iff_eq (ne_of_gt denominator)]
        exact this
      constructor <;> simp [ExtendedMantissa.ofMantissaAndAccuracy, doubled, one]
    | gt =>
      have more : 1 < halves := by
        have : (whole : ℚ) < 2 * rest := by exact_mod_cast Nat.compare_eq_gt.1 order
        rw [isHalves, one_lt_div denominator]
        exact this
      constructor <;> simp only [ExtendedMantissa.ofMantissaAndAccuracy, doubled,
        Bool.toNat_true, Nat.cast_one]
      · linarith
      · linarith
      · constructor
        · intro absurd
          cases absurd
        · intro equal
          linarith

/-- A mantissa of 53 bits is fine enough. -/
theorem fineEnough_of_le {mantissa : Nat} {exponent : Int} (bits : 2 ^ 52 ≤ mantissa) :
    FineEnough mantissa exponent := by
  have : 52 ≤ mantissa.log2 := (Nat.le_log2 (by omega)).2 bits
  rw [FineEnough]
  omega

section Operations

variable {mantissa : Nat} {exponent : Int}

/-- The product of two numbers, in the span of a double, is that double. -/
theorem mul_finite (canonical : Canonical mantissa exponent) {sign₁ sign₂ : Sign} {m₁ m₂ : Nat}
    {e₁ e₂ : Int} (positive₁ : 0 < m₁) (positive₂ : 0 < m₂) (bits : 2 ^ 52 ≤ m₁ * m₂)
    (inside : (Span.ofDouble mantissa exponent).Contains
      ((m₁ : ℚ) * 2 ^ e₁ * (m₂ * 2 ^ e₂))) :
    UnpackedFloat.mul Format.binary64 (.finite sign₁ m₁ e₁ positive₁)
        (.finite sign₂ m₂ e₂ positive₂) =
      .finite (sign₁ * sign₂) mantissa exponent canonical.positive := by
  have places : (m₁ : ℚ) * 2 ^ e₁ * (m₂ * 2 ^ e₂) / 2 ^ (e₁ + e₂) = (m₁ * m₂ : Nat) := by
    rw [zpow_add₀ (by norm_num)]
    push_cast
    field_simp
  exact roundWithAccuracy_eq _ canonical inside (places ▸ covers_exact _) (fineEnough_of_le bits)

/-- The mantissa of a quotient is fine enough and covers the quotient. -/
theorem divCore_covers {m₁ m₂ : Nat} (e₁ e₂ : Int) (positive₁ : 0 < m₁) (positive₂ : 0 < m₂)
    {coarse : Nat} {fine : Int} {accuracy : Accuracy}
    (core : divCore Format.binary64 m₁ e₁ m₂ e₂ = (coarse, fine, accuracy)) :
    FineEnough coarse fine ∧
      Covers (ExtendedMantissa.ofMantissaAndAccuracy coarse accuracy)
        ((m₁ : ℚ) * 2 ^ e₁ / (m₂ * 2 ^ e₂) / 2 ^ fine) := by
  have denominator : (m₂ : ℚ) ≠ 0 := by exact_mod_cast Nat.ne_of_gt positive₂
  have width : (Format.binary64.mantissaBits : Int) = 53 := rfl
  have lowest : Format.binary64.minExponent = -1074 := rfl
  rw [divCore, Nat.shiftLeft_eq, Format.targetExponent, totalExponent, totalExponent, width,
    lowest] at core
  simp only [Prod.mk.injEq] at core
  obtain ⟨isCoarse, isFine, rfl⟩ := core
  rw [isFine] at isCoarse
  rw [isFine]
  obtain ⟨shift, isShift⟩ : ∃ shift : Nat, e₁ - e₂ - fine = shift :=
    Int.eq_ofNat_of_zero_le (by omega)
  rw [isShift, Int.toNat_natCast] at isCoarse ⊢
  constructor
  · -- unless the exponent is that of the smallest doubles, the quotient has 53 bits
    by_cases small : fine ≤ -1074
    · rw [FineEnough]
      omega
    · apply fineEnough_of_le
      rw [← isCoarse, Nat.le_div_iff_mul_le positive₂]
      have enough : 53 + m₂.log2 ≤ m₁.log2 + shift := by omega
      calc 2 ^ 52 * m₂ ≤ 2 ^ 52 * 2 ^ (m₂.log2 + 1) :=
            Nat.mul_le_mul_left _ (Nat.le_of_lt Nat.lt_log2_self)
        _ = 2 ^ (53 + m₂.log2) := by
            rw [← Nat.pow_add]
            congr 1
            omega
        _ ≤ 2 ^ (m₁.log2 + shift) := Nat.pow_le_pow_right (by decide) enough
        _ = 2 ^ m₁.log2 * 2 ^ shift := Nat.pow_add _ _ _
        _ ≤ m₁ * 2 ^ shift :=
            Nat.mul_le_mul_right _ (Nat.log2_self_le (Nat.ne_of_gt positive₁))
  · have places : (m₁ : ℚ) * 2 ^ e₁ / (m₂ * 2 ^ e₂) / 2 ^ fine =
        ((m₁ * 2 ^ shift : Nat) : ℚ) / m₂ := by
      have exponents : e₁ = shift + fine + e₂ := by omega
      rw [exponents, zpow_add₀ (by norm_num), zpow_add₀ (by norm_num), zpow_natCast]
      push_cast
      field_simp
    rw [places, ← isCoarse]
    exact covers_quotient _ positive₂

/-- The quotient of two numbers, in the span of a double, is that double. -/
theorem div_finite (canonical : Canonical mantissa exponent) {sign₁ sign₂ : Sign} {m₁ m₂ : Nat}
    {e₁ e₂ : Int} (positive₁ : 0 < m₁) (positive₂ : 0 < m₂)
    (inside : (Span.ofDouble mantissa exponent).Contains
      ((m₁ : ℚ) * 2 ^ e₁ / (m₂ * 2 ^ e₂))) :
    UnpackedFloat.div Format.binary64 (.finite sign₁ m₁ e₁ positive₁)
        (.finite sign₂ m₂ e₂ positive₂) =
      .finite (sign₁ / sign₂) mantissa exponent canonical.positive := by
  obtain ⟨coarse, fine, accuracy, core⟩ :
      ∃ coarse fine accuracy, divCore Format.binary64 m₁ e₁ m₂ e₂ = (coarse, fine, accuracy) :=
    ⟨_, _, _, rfl⟩
  obtain ⟨enough, covers⟩ := divCore_covers e₁ e₂ positive₁ positive₂ core
  have rounded := roundWithAccuracy_eq (sign₁ / sign₂) canonical inside covers enough
  rw [UnpackedFloat.div, core]
  exact rounded

end Operations

section Scientific

variable {mantissa : Nat} {exponent : Int} {number : Scaled}

/-- A number in the span of a double is neither too small nor too large for the doubles. -/
theorem bounds_of_contains (canonical : Canonical mantissa exponent) {value : ℚ}
    (inside : (Span.ofDouble mantissa exponent).Contains value) :
    2 ^ (-1075 : Int) ≤ value ∧ value < 2 ^ (1024 : Int) := by
  have unit : (0 : ℚ) < 2 ^ exponent := zpow_pos (by norm_num) _
  obtain ⟨atLeast, atMost, -⟩ := roundsTo_of_contains canonical.positive inside
  have positive : (1 : ℚ) ≤ mantissa := by exact_mod_cast canonical.positive
  have fits : (mantissa : ℚ) + 1 ≤ 2 ^ 53 := by exact_mod_cast canonical.fits
  constructor
  · have half : 1 / 2 ≤ value / 2 ^ exponent := by linarith
    calc (2 : ℚ) ^ (-1075 : Int) ≤ 2 ^ (exponent - 1) := by
          apply zpow_le_zpow_right₀ (by norm_num)
          have := canonical.lowest
          omega
      _ = 1 / 2 * 2 ^ exponent := by
          rw [zpow_sub_one₀ (by norm_num)]
          ring
      _ ≤ value := (le_div_iff₀ unit).1 half
  · have below : value / 2 ^ exponent < 2 ^ 53 := by linarith
    calc value < 2 ^ 53 * 2 ^ exponent := (div_lt_iff₀ unit).1 below
      _ = 2 ^ (53 + exponent) := by
          rw [zpow_add₀ (by norm_num)]
          norm_num
      _ ≤ 2 ^ (1024 : Int) := by
          apply zpow_le_zpow_right₀ (by norm_num)
          have := canonical.highest
          omega

/-- A decimal in the span of a double is not zero. -/
theorem coefficient_pos_of_contains (canonical : Canonical mantissa exponent)
    (inside : (Span.ofDouble mantissa exponent).Contains number.value) :
    0 < number.coefficient := by
  rw [Nat.pos_iff_ne_zero]
  intro zero
  have positive : (0 : ℚ) < 2 ^ (-1075 : Int) := zpow_pos (by norm_num) _
  have large := (bounds_of_contains canonical inside).1
  rw [Scaled.value, zero, Nat.cast_zero, zero_mul] at large
  linarith

/-- The value of a decimal with a power of ten that is not negative. -/
theorem value_of_nonneg (whole : 0 ≤ number.power) :
    number.value = (number.coefficient * 10 ^ number.power.toNat : Nat) := by
  have power : number.power = (number.power.toNat : Int) := (Int.toNat_of_nonneg whole).symm
  rw [Scaled.value, power, zpow_natCast, Int.toNat_natCast]
  push_cast
  rfl

/-- The value of a decimal with a negative power of ten. -/
theorem value_of_neg (fraction : number.power < 0) :
    number.value = (number.coefficient : ℚ) / (10 ^ (-number.power).toNat : Nat) := by
  have power : number.power = -((-number.power).toNat : Int) := by omega
  rw [Scaled.value]
  conv_lhs => rw [power, zpow_neg, zpow_natCast]
  push_cast
  rfl

theorem pow_two_le_pow_ten {twos tens : Nat} (fewer : twos ≤ tens) : 2 ^ twos ≤ 10 ^ tens :=
  Nat.le_trans (Nat.pow_le_pow_right (by decide) fewer) (Nat.pow_le_pow_left (by decide) _)

/-- A decimal that is not too large for the doubles has no huge power of ten. -/
theorem power_le_of_lt (nonzero : number.coefficient ≠ 0)
    (small : number.value < 2 ^ (1024 : Int)) : number.power ≤ 2048 := by
  by_contra huge
  have whole : 0 ≤ number.power := by omega
  have many : 1024 ≤ number.power.toNat := by omega
  rw [value_of_nonneg whole, show (1024 : Int) = (1024 : Nat) from rfl, zpow_natCast] at small
  have bound : number.coefficient * 10 ^ number.power.toNat < 2 ^ 1024 := by exact_mod_cast small
  have powers := pow_two_le_pow_ten many
  have product : 10 ^ number.power.toNat ≤ number.coefficient * 10 ^ number.power.toNat :=
    Nat.le_mul_of_pos_left _ (Nat.pos_of_ne_zero nonzero)
  exact Nat.not_lt_of_le (Nat.le_trans powers product) bound

/-- A decimal that is not too small for the doubles has no tiny power of ten. -/
theorem le_power_of_le (large : 2 ^ (-1075 : Int) ≤ number.value) :
    -(2048 + (number.coefficient.log2 : Int)) ≤ number.power := by
  by_contra tiny
  have fraction : number.power < 0 := by omega
  have divisor : (0 : ℚ) < (10 ^ (-number.power).toNat : Nat) := by positivity
  rw [value_of_neg fraction, le_div_iff₀ divisor, show (-1075 : Int) = -(1075 : Nat) from rfl,
    zpow_neg, zpow_natCast, inv_mul_le_iff₀ (by positivity)] at large
  have bound : 10 ^ (-number.power).toNat ≤ 2 ^ 1075 * number.coefficient := by
    exact_mod_cast large
  have : 2 ^ 1075 * number.coefficient < 10 ^ (-number.power).toNat :=
    calc 2 ^ 1075 * number.coefficient < 2 ^ 1075 * 2 ^ (number.coefficient.log2 + 1) :=
          Nat.mul_lt_mul_of_pos_left Nat.lt_log2_self (by positivity)
      _ = 2 ^ (1076 + number.coefficient.log2) := by
          rw [← Nat.pow_add]
          congr 1
          omega
      _ ≤ 10 ^ (-number.power).toNat := pow_two_le_pow_ten (by omega)
  exact Nat.not_lt_of_le bound this

/-- The long way: a decimal in the span of a double is that double. -/
theorem ofScientific_eq (canonical : Canonical mantissa exponent)
    (inside : (Span.ofDouble mantissa exponent).Contains number.value) :
    UnpackedFloat.ofScientific Format.binary64 number.coefficient number.power =
      .finite .positive mantissa exponent canonical.positive := by
  obtain ⟨large, small⟩ := bounds_of_contains canonical inside
  have positive := coefficient_pos_of_contains canonical inside
  have nonzero : number.coefficient ≠ 0 := Nat.ne_of_gt positive
  have notHuge := power_le_of_lt nonzero small
  have notTiny := le_power_of_le large
  rw [UnpackedFloat.ofScientific, dif_neg nonzero, if_neg (by norm_num; omega),
    if_neg (by norm_num; omega)]
  by_cases whole : 0 ≤ number.power
  · rw [if_pos whole]
    have width : Format.binary64.mantissaBits = 53 := rfl
    refine mul_finite canonical _ _ ?_ ?_
    · rw [Nat.shiftLeft_eq, width]
      calc 2 ^ 52 ≤ 1 * 2 ^ 53 * 1 := by norm_num
        _ ≤ number.coefficient * 2 ^ 53 * 10 ^ number.power.toNat :=
          Nat.mul_le_mul (Nat.mul_le_mul_right _ positive) (Nat.pow_pos (by decide))
    · have same : ((number.coefficient <<< Format.binary64.mantissaBits : Nat) : ℚ) *
          2 ^ (-(Format.binary64.mantissaBits : Int)) *
            ((10 ^ number.power.toNat : Nat) * 2 ^ (0 : Int)) = number.value := by
        rw [value_of_nonneg whole, Nat.shiftLeft_eq, width, zpow_neg, zpow_natCast]
        push_cast
        field_simp
        norm_num
      exact same ▸ inside
  · rw [if_neg whole]
    refine div_finite canonical _ _ ?_
    have same : (number.coefficient : ℚ) * 2 ^ (0 : Int) /
        ((10 ^ (-number.power).toNat : Nat) * 2 ^ (0 : Int)) = number.value := by
      rw [value_of_neg (by omega), zpow_zero, mul_one, mul_one]
    exact same ▸ inside

end Scientific

section Short

/-- A double lies in its own span. -/
theorem contains_self {mantissa : Nat} {exponent : Int} :
    (Span.ofDouble mantissa exponent).Contains ((mantissa : ℚ) * 2 ^ exponent) := by
  have unit : (2 : ℚ) ^ exponent ≠ 0 := ne_of_gt (zpow_pos (by norm_num) _)
  have low : ((Span.ofDouble mantissa exponent).low : ℚ) ≤ 4 * mantissa := by
    have : (Span.ofDouble mantissa exponent).low ≤ 4 * mantissa := by
      simp only [Span.ofDouble]
      split <;> omega
    exact_mod_cast this
  rw [contains_ofDouble_iff, mul_div_cancel_right₀ _ unit]
  split
  · constructor <;> linarith
  · next odd =>
    have strict : ((Span.ofDouble mantissa exponent).low : ℚ) < 4 * mantissa := by
      have : (Span.ofDouble mantissa exponent).low < 4 * mantissa := by
        simp only [Span.ofDouble]
        split <;> omega
      exact_mod_cast this
    constructor <;> linarith

/-- Parts that stand for a whole number and use all bits of the mantissa. -/
structure IsWhole (parts : UnpackedFloat) (whole : Nat) : Prop where
  intro ::
  isFinite : ∃ (mantissa : Nat) (exponent : Int) (canonical : Canonical mantissa exponent),
    parts = .finite .positive mantissa exponent canonical.positive ∧ 2 ^ 52 ≤ mantissa ∧
      (mantissa : ℚ) * 2 ^ exponent = whole

/-- A whole number of at most 53 bits is a double. -/
theorem isWhole_toFloat {whole : Nat} (positive : 0 < whole) (small : whole < 2 ^ 53) :
    IsWhole whole.toUInt64.toFloat.toModel.unpack whole := by
  have bits : whole.log2 < 53 := (Nat.log2_lt (Nat.ne_of_gt positive)).2 small
  obtain ⟨shift, isShift⟩ : ∃ shift, whole.log2 + shift = 52 := ⟨52 - whole.log2, by omega⟩
  have leading : 2 ^ 52 ≤ whole * 2 ^ shift := by
    calc 2 ^ 52 = 2 ^ whole.log2 * 2 ^ shift := by rw [← Nat.pow_add, isShift]
      _ ≤ whole * 2 ^ shift :=
        Nat.mul_le_mul_right _ (Nat.log2_self_le (Nat.ne_of_gt positive))
  have fits : whole * 2 ^ shift < 2 ^ 53 := by
    calc whole * 2 ^ shift < 2 ^ (whole.log2 + 1) * 2 ^ shift :=
          Nat.mul_lt_mul_of_pos_right Nat.lt_log2_self (Nat.two_pow_pos _)
      _ = 2 ^ 53 := by
          rw [← Nat.pow_add]
          congr 1
          omega
  have canonical : Canonical (whole * 2 ^ shift) (-(shift : Int)) :=
    ⟨by omega, fits, by omega, by omega, .inl leading⟩
  have value : ((whole * 2 ^ shift : Nat) : ℚ) * 2 ^ (-(shift : Int)) = whole := by
    rw [zpow_neg, zpow_natCast]
    push_cast
    field_simp
  have rounded : UnpackedFloat.ofUInt64 Format.binary64 whole.toUInt64 =
      .finite .positive (whole * 2 ^ shift) (-(shift : Int)) canonical.positive := by
    have number : whole.toUInt64.toNat = whole := by
      change whole % 2 ^ 64 = whole
      omega
    have target : Format.binary64.targetExponent (totalExponent whole 0) = -(shift : Int) := by
      rw [targetExponent_eq]
      omega
    have covers : Covers (ExtendedMantissa.ofMantissaAndAccuracy (whole * 2 ^ shift) .exact)
        (((whole * 2 ^ shift : Nat) : ℚ) * 2 ^ (-(shift : Int)) / 2 ^ (-(shift : Int))) := by
      rw [mul_div_cancel_right₀ _ (ne_of_gt (zpow_pos (by norm_num) _))]
      exact covers_exact _
    have sign : compare (whole : Int) 0 = .gt := Int.compare_eq_gt.2 (by omega)
    rw [UnpackedFloat.ofUInt64, UnpackedFloat.ofNat, UnpackedFloat.ofInt, UnpackedFloat.normalize,
      number]
    simp only [sign, Int.toNat_natCast, UnpackedFloat.round, decreaseExponent, target,
      Nat.shiftLeft_eq, zero_sub, neg_neg]
    exact roundWithAccuracy_eq _ canonical contains_self covers (fineEnough_of_le leading)
  refine ⟨_, _, canonical, ?_, leading, value⟩
  change (Float.Model.pack (UnpackedFloat.ofUInt64 Format.binary64 whole.toUInt64)).unpack = _
  rw [rounded]
  exact unpack_pack canonical.positive canonical

/-- Whether parts stand for a whole number, in a form that can be computed. -/
def standsFor (whole : Nat) : UnpackedFloat → Bool
  | .finite .positive mantissa exponent _ =>
    2 ^ 52 ≤ mantissa && -52 ≤ exponent &&
      mantissa * 2 ^ (exponent + 52).toNat = whole * 2 ^ 52
  | _ => false

theorem isWhole_of_standsFor {model : Float.Model} {whole : Nat}
    (stands : standsFor whole model.unpack = true) : IsWhole model.unpack whole := by
  cases parts : model.unpack with
  | notANumber => simp [standsFor, parts] at stands
  | infinity sign => simp [standsFor, parts] at stands
  | zero sign => simp [standsFor, parts] at stands
  | finite sign mantissa exponent positive =>
    cases sign with
    | negative => simp [standsFor, parts] at stands
    | positive =>
      simp only [standsFor, parts, Bool.and_eq_true, decide_eq_true_eq] at stands
      obtain ⟨⟨leading, lowest⟩, product⟩ := stands
      refine ⟨mantissa, exponent, canonical_of_unpack parts, rfl, leading, ?_⟩
      obtain ⟨shift, isShift⟩ : ∃ shift : Nat, exponent + 52 = shift :=
        Int.eq_ofNat_of_zero_le (by omega)
      have isExponent : exponent = shift - 52 := by omega
      rw [isShift, Int.toNat_natCast] at product
      have value : (mantissa : ℚ) * 2 ^ shift = whole * 2 ^ 52 := by exact_mod_cast product
      rw [isExponent, zpow_sub₀ (by norm_num), zpow_natCast, ← mul_div_assoc, value]
      norm_num

/-- The powers of ten that are doubles. -/
theorem isWhole_powerOfTen {power : Nat} (small : power ≤ 22)
    (listed : power < Float.exactlyRepresentablePowersOfTen.size) :
    IsWhole Float.exactlyRepresentablePowersOfTen[power].toModel.unpack (10 ^ power) := by
  have table : ∀ power : Fin 23,
      standsFor (10 ^ (power : Nat))
        Float.exactlyRepresentablePowersOfTen[power].toModel.unpack = true := by
    decide +kernel
  exact isWhole_of_standsFor (table ⟨power, by omega⟩)

end Short

section Nearest

variable {mantissa : Nat} {exponent : Int} {number : Scaled}

/-- The sign that a text shows. -/
def signOf (negative : Bool) : Sign :=
  if negative then .negative else .positive

/-- A decimal in the span of a double reads as that double. -/
theorem ofScientific_magnitude (canonical : Canonical mantissa exponent)
    (inside : (Span.ofDouble mantissa exponent).Contains number.value) :
    Float.ofScientific number.coefficient (number.power < 0) number.power.natAbs =
      ofParts (.finite .positive mantissa exponent canonical.positive) := by
  rw [Float.ofScientific]
  by_cases short : number.coefficient < 2 ^ 53 ∧ number.power.natAbs ≤ 22
  · have nonzero := coefficient_pos_of_contains canonical inside
    obtain ⟨m₁, e₁, canonical₁, parts₁, leading₁, value₁⟩ := isWhole_toFloat nonzero short.1
    obtain ⟨m₂, e₂, canonical₂, parts₂, leading₂, value₂⟩ := isWhole_powerOfTen short.2 (by
      simp [Float.exactlyRepresentablePowersOfTen]; omega)
    rw [dif_pos short]
    by_cases fraction : number.power < 0
    · simp only [fraction, decide_true, if_true]
      change ofParts (UnpackedFloat.div Format.binary64 _ _) = _
      rw [parts₁, parts₂, div_finite canonical]
      · rfl
      · have size : number.power.natAbs = (-number.power).toNat := by omega
        rw [value₁, value₂, size, ← value_of_neg fraction]
        exact inside
    · simp only [fraction, decide_false, Bool.false_eq_true, if_false]
      change ofParts (UnpackedFloat.mul Format.binary64 _ _) = _
      rw [parts₁, parts₂, mul_finite canonical]
      · rfl
      · calc 2 ^ 52 ≤ 2 ^ 52 * 2 ^ 52 := by norm_num
          _ ≤ m₁ * m₂ := Nat.mul_le_mul leading₁ leading₂
      · have size : number.power.natAbs = number.power.toNat := by omega
        rw [value₁, value₂, size, ← Nat.cast_mul, ← value_of_nonneg (by omega)]
        exact inside
  · rw [dif_neg short]
    have power : (if decide (number.power < 0) = true then Int.negOfNat number.power.natAbs
        else Int.ofNat number.power.natAbs) = number.power := by
      split
      · next fraction =>
        have fraction : number.power < 0 := of_decide_eq_true fraction
        rw [Int.negOfNat_eq]
        change -(number.power.natAbs : Int) = number.power
        omega
      · next whole =>
        have whole : ¬ number.power < 0 := by simpa using whole
        change (number.power.natAbs : Int) = number.power
        omega
    simp only [power]
    change ofParts (UnpackedFloat.ofScientific Format.binary64 _ _) = _
    rw [ofScientific_eq canonical inside]

/-- A decimal in the span of a double reads as the double, with the sign in front of it. -/
theorem nearest_eq (canonical : Canonical mantissa exponent)
    (inside : (Span.ofDouble mantissa exponent).Contains number.value) (negative : Bool) :
    Decimal.nearest negative number =
      ofParts (.finite (signOf negative) mantissa exponent canonical.positive) := by
  rw [Decimal.nearest, ofScientific_magnitude canonical inside]
  cases negative with
  | false => rfl
  | true => exact neg_ofParts_finite canonical.positive canonical

/-- Zero reads as zero, with the sign in front of it. -/
theorem nearest_zero (negative : Bool) (power : Int) :
    Decimal.nearest negative ⟨0, power⟩ = ofParts (.zero (signOf negative)) := by
  have magnitude : Float.ofScientific 0 (power < 0) power.natAbs = ofParts (.zero .positive) := by
    rw [Float.ofScientific]
    by_cases short : 0 < 2 ^ 53 ∧ power.natAbs ≤ 22
    · obtain ⟨m, e, canonical, parts, -⟩ := isWhole_powerOfTen short.2 (by
        simp [Float.exactlyRepresentablePowersOfTen]; omega)
      have zero : (0 : Nat).toUInt64.toFloat.toModel.unpack = .zero .positive := rfl
      rw [dif_pos short]
      by_cases fraction : power < 0
      · simp only [fraction, decide_true, if_true]
        change ofParts (UnpackedFloat.div Format.binary64 _ _) = _
        rw [parts, zero]
        rfl
      · simp only [fraction, decide_false, Bool.false_eq_true, if_false]
        change ofParts (UnpackedFloat.mul Format.binary64 _ _) = _
        rw [parts, zero]
        rfl
    · rw [dif_neg short]
      rfl
  rw [Decimal.nearest, magnitude]
  cases negative with
  | false => rfl
  | true => exact neg_ofParts_zero

end Nearest

end Double

end AccelProfile
