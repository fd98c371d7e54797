import Mathlib
import AccelProfile.Decimal.Reading

/-!
# Doubles and their bits

A double is kept as bits and looked at as a sign, a mantissa and an exponent. The mantissa
of a finite double other than zero has 53 bits, unless the exponent is the lowest one: such
a pair is canonical, and each number that a double can be is written by one canonical pair.
So nothing is lost on the way from the bits to the parts and back, in either direction.
-/

namespace AccelProfile.Double

open Float.Model (UnpackedFloat Format)
open Float.Model.UnpackedFloat

/-- A mantissa and an exponent as a double has them. -/
structure Canonical (mantissa : Nat) (exponent : Int) : Prop where
  positive : 0 < mantissa
  fits : mantissa < 2 ^ 53
  lowest : -1074 ≤ exponent
  highest : exponent ≤ 971
  /-- The first bit is used up, or the exponent is the lowest one. -/
  filled : 2 ^ 52 ≤ mantissa ∨ exponent = -1074

/-- The parts of a double make up its bits. -/
theorem packComponents_unpack (bits : BitVec Format.binary64.numBits) :
    packComponents Format.binary64 (Sign.ofBitVec (unpackSign bits)) (unpackExponent bits)
      (unpackMantissa bits) = bits := by
  have sign : (Sign.ofBitVec (unpackSign bits)).toBitVec = unpackSign bits := by
    generalize unpackSign bits = bit
    revert bit
    decide
  rw [packComponents, sign]
  ext i bound
  simp only [unpackSign, unpackExponent, unpackMantissa, BitVec.extractLsb]
  grind

@[simp]
theorem unpackSign_packComponents (sign : Sign) (exponent : BitVec 11) (mantissa : BitVec 52) :
    Sign.ofBitVec (unpackSign (packComponents Format.binary64 sign exponent mantissa)) = sign := by
  have field : unpackSign (packComponents Format.binary64 sign exponent mantissa) =
      sign.toBitVec := by
    ext i bound
    simp only [unpackSign, packComponents, BitVec.extractLsb]
    grind
  rw [field]
  cases sign <;> rfl

/-- The leading one stands in front of the 52 bits that are kept. -/
theorem toNat_leading_append (fraction : BitVec 52) :
    (1#1 ++ fraction).toNat = 2 ^ 52 + fraction.toNat := by
  rw [BitVec.toNat_append, ← Nat.shiftLeft_add_eq_or_of_lt fraction.isLt]
  rfl

/-- The parts of a double other than the special ones. -/
inductive Parts (bits : BitVec Format.binary64.numBits) : UnpackedFloat → Prop
  /-- The fields of a double with the lowest exponent: no leading one. -/
  | subnormal (positive : 0 < (unpackMantissa bits).toNat)
      (lowest : unpackExponent bits = 0#11) :
      Parts bits (.finite (Sign.ofBitVec (unpackSign bits)) (unpackMantissa bits).toNat (-1074)
        positive)
  | normal (positive : 0 < 2 ^ 52 + (unpackMantissa bits).toNat)
      (above : 0 < (unpackExponent bits).toNat) (below : (unpackExponent bits).toNat < 2047) :
      Parts bits (.finite (Sign.ofBitVec (unpackSign bits)) (2 ^ 52 + (unpackMantissa bits).toNat)
        ((unpackExponent bits).toNat - 1075) positive)
  | zero (mantissa : unpackMantissa bits = 0#52) (lowest : unpackExponent bits = 0#11) :
      Parts bits (.zero (Sign.ofBitVec (unpackSign bits)))
  | infinity (mantissa : unpackMantissa bits = 0#52) (highest : unpackExponent bits = -1#11) :
      Parts bits (.infinity (Sign.ofBitVec (unpackSign bits)))
  | notANumber (mantissa : unpackMantissa bits ≠ 0#52) (highest : unpackExponent bits = -1#11) :
      Parts bits .notANumber

theorem parts_unpack (bits : BitVec Format.binary64.numBits) :
    Parts bits (UnpackedFloat.unpack Format.binary64 bits) := by
  rw [UnpackedFloat.unpack]
  split
  · next highest =>
    split
    · next mantissa => exact .infinity mantissa highest
    · next mantissa => exact .notANumber mantissa highest
  · next notHighest =>
    split
    · next lowest =>
      split
      · next mantissa => exact .zero mantissa lowest
      · next mantissa =>
        have positive : 0 < (unpackMantissa bits).toNat := by
          rw [Nat.pos_iff_ne_zero]
          intro zero
          exact mantissa (BitVec.eq_of_toNat_eq zero)
        have exponent : ((unpackExponent bits).toNat : Int) -
            (Format.binary64.exponentBias + Format.binary64.mantissaBitsWithoutImplicit) + 1 =
              -1074 := by
          rw [lowest]
          rfl
        simp only [exponent]
        exact .subnormal positive lowest
    · next notLowest =>
      have above : 0 < (unpackExponent bits).toNat := by
        rw [Nat.pos_iff_ne_zero]
        intro zero
        exact notLowest (BitVec.eq_of_toNat_eq zero)
      have below : (unpackExponent bits).toNat < 2047 := by
        have bound : (unpackExponent bits).toNat < 2048 := (unpackExponent bits).isLt
        have other : (unpackExponent bits).toNat ≠ 2047 := fun top =>
          notHighest (BitVec.eq_of_toNat_eq top)
        omega
      have mantissa : (1#1 ++ unpackMantissa bits).toNat = 2 ^ 52 + (unpackMantissa bits).toNat :=
        toNat_leading_append _
      have exponent : ((unpackExponent bits).toNat : Int) -
          (Format.binary64.exponentBias + Format.binary64.mantissaBitsWithoutImplicit) =
            (unpackExponent bits).toNat - 1075 := rfl
      simp only [mantissa, exponent]
      exact .normal (by omega) above below

/-- A canonical pair without the leading one packs to the lowest exponent. -/
theorem pack_subnormal {sign : Sign} {mantissa : Nat} (positive : 0 < mantissa)
    (small : mantissa < 2 ^ 52) :
    UnpackedFloat.pack Format.binary64 (.finite sign mantissa (-1074) positive) =
      packComponents Format.binary64 sign 0#11 (BitVec.ofNat 52 mantissa) := by
  have bits : mantissa.log2 < 52 := (Nat.log2_lt (Nat.ne_of_gt positive)).2 small
  have biased : (-1074 + (Format.binary64.exponentBias : Int) +
      Format.binary64.mantissaBitsWithoutImplicit).toNat = 1 := rfl
  have width : Format.binary64.mantissaBits = 53 := rfl
  rw [UnpackedFloat.pack]
  simp only [biased, width]
  rw [if_neg (by decide), if_neg (by omega)]

/-- A canonical pair with the leading one packs to the bits behind it. -/
theorem pack_normal {sign : Sign} {mantissa : Nat} {exponent : Int} (positive : 0 < mantissa)
    (leading : 2 ^ 52 ≤ mantissa) (canonical : Canonical mantissa exponent) :
    UnpackedFloat.pack Format.binary64 (.finite sign mantissa exponent positive) =
      packComponents Format.binary64 sign (BitVec.ofNat 11 (exponent + 1075).toNat)
        (BitVec.ofNat 52 mantissa) := by
  have bits : mantissa.log2 = 52 :=
    (Nat.log2_eq_iff (Nat.ne_of_gt positive)).2 ⟨leading, canonical.fits⟩
  have biased : (exponent + (Format.binary64.exponentBias : Int) +
      Format.binary64.mantissaBitsWithoutImplicit).toNat = (exponent + 1075).toNat := by
    have sum : ((Format.binary64.exponentBias : Int) +
      Format.binary64.mantissaBitsWithoutImplicit) = 1075 := rfl
    omega
  have width : Format.binary64.mantissaBits = 53 := rfl
  have bound := canonical.highest
  rw [UnpackedFloat.pack]
  simp only [biased, width]
  rw [if_neg (by omega), if_pos (by omega)]

/-- The parts of a double pack to its bits. -/
theorem pack_unpack_bits {bits : BitVec Format.binary64.numBits}
    (valid : Format.binary64.Valid bits) :
    UnpackedFloat.pack Format.binary64 (UnpackedFloat.unpack Format.binary64 bits) = bits := by
  have fields := packComponents_unpack bits
  have fractionFits : (unpackMantissa bits).toNat < 2 ^ 52 := (unpackMantissa bits).isLt
  have shape := parts_unpack bits
  generalize UnpackedFloat.unpack Format.binary64 bits = parts at shape ⊢
  cases shape with
  | subnormal positive lowest =>
    rw [pack_subnormal positive fractionFits, BitVec.ofNat_toNat, BitVec.setWidth_eq, ← lowest]
    exact fields
  | normal positive above below =>
    have canonical : Canonical (2 ^ 52 + (unpackMantissa bits).toNat)
        ((unpackExponent bits).toNat - 1075) :=
      ⟨positive, by omega, by omega, by omega, .inl (by omega)⟩
    have exponent : BitVec.ofNat 11 (((unpackExponent bits).toNat : Int) - 1075 + 1075).toNat =
        unpackExponent bits := by
      rw [Int.sub_add_cancel, Int.toNat_natCast, BitVec.ofNat_toNat, BitVec.setWidth_eq]
    have mantissa : BitVec.ofNat 52 (2 ^ 52 + (unpackMantissa bits).toNat) =
        unpackMantissa bits := by
      apply BitVec.eq_of_toNat_eq
      rw [BitVec.toNat_ofNat, Nat.add_mod_left, Nat.mod_eq_of_lt fractionFits]
    rw [pack_normal positive (by omega) canonical, exponent, mantissa]
    exact fields
  | zero mantissa lowest =>
    rw [mantissa, lowest] at fields
    exact fields
  | infinity mantissa highest =>
    rw [mantissa, highest] at fields
    exact fields
  | notANumber mantissa highest => exact (valid.eq_packedNaN highest mantissa).symm

/-- The parts of a double pack to the double. -/
theorem pack_unpack (model : Float.Model) : Float.Model.pack model.unpack = model := by
  obtain ⟨bits, valid⟩ := model
  have same : UnpackedFloat.pack Format.binary64
      (UnpackedFloat.unpack Format.binary64 bits.toBitVec) = bits.toBitVec :=
    pack_unpack_bits valid
  simp only [Float.Model.pack, Float.Model.unpack, same]

/-- A finite double other than zero has a canonical mantissa and exponent. -/
theorem canonical_of_unpack {model : Float.Model} {sign : Sign} {mantissa : Nat} {exponent : Int}
    {positive : 0 < mantissa} (parts : model.unpack = .finite sign mantissa exponent positive) :
    Canonical mantissa exponent := by
  have shape := parts_unpack model.toBits.toBitVec
  rw [show UnpackedFloat.unpack Format.binary64 model.toBits.toBitVec = _ from parts] at shape
  have fractionFits : (@unpackMantissa Format.binary64 model.toBits.toBitVec).toNat < 2 ^ 52 :=
    BitVec.isLt _
  cases shape with
  | subnormal positive lowest => exact ⟨positive, by omega, by omega, by omega, .inr rfl⟩
  | normal positive above below =>
    exact ⟨positive, by omega, by omega, by omega, .inl (by omega)⟩

/-- A canonical pair is not changed by packing. -/
theorem unpack_pack {sign : Sign} {mantissa : Nat} {exponent : Int} (positive : 0 < mantissa)
    (canonical : Canonical mantissa exponent) :
    (Float.Model.pack (.finite sign mantissa exponent positive)).unpack =
      .finite sign mantissa exponent positive := by
  change UnpackedFloat.unpack Format.binary64
    (UnpackedFloat.pack Format.binary64 (.finite sign mantissa exponent positive)) = _
  have fits := canonical.fits
  have lowest := canonical.lowest
  have highest := canonical.highest
  by_cases leading : 2 ^ 52 ≤ mantissa
  · have biased : (BitVec.ofNat 11 (exponent + 1075).toNat).toNat = (exponent + 1075).toNat := by
      rw [BitVec.toNat_ofNat]
      omega
    have notHighest : BitVec.ofNat 11 (exponent + 1075).toNat ≠ -1#11 := by
      intro top
      have := congrArg BitVec.toNat top
      rw [biased] at this
      simp at this
      omega
    have notLowest : BitVec.ofNat 11 (exponent + 1075).toNat ≠ 0#11 := by
      intro zero
      have := congrArg BitVec.toNat zero
      rw [biased] at this
      simp at this
      omega
    have restored : (1#1 ++ BitVec.ofNat 52 mantissa).toNat = mantissa := by
      rw [toNat_leading_append, BitVec.toNat_ofNat]
      omega
    have unbiased : ((BitVec.ofNat 11 (exponent + 1075).toNat).toNat : Int) -
        (Format.binary64.exponentBias + Format.binary64.mantissaBitsWithoutImplicit) =
          exponent := by
      have sum : ((Format.binary64.exponentBias : Int) +
        Format.binary64.mantissaBitsWithoutImplicit) = 1075 := rfl
      omega
    rw [pack_normal positive leading canonical, UnpackedFloat.unpack]
    simp only [unpackExponent_packComponents, unpackMantissa_packComponents,
      unpackSign_packComponents]
    rw [if_neg notHighest, if_neg notLowest]
    simp only [restored, unbiased]
  · have isLowest : exponent = -1074 := canonical.filled.resolve_left leading
    subst isLowest
    have restored : (BitVec.ofNat 52 mantissa).toNat = mantissa := by
      rw [BitVec.toNat_ofNat]
      omega
    have notZero : BitVec.ofNat 52 mantissa ≠ 0#52 := by
      intro zero
      have := congrArg BitVec.toNat zero
      rw [restored] at this
      simp at this
      omega
    rw [pack_subnormal positive (by omega), UnpackedFloat.unpack]
    simp only [unpackExponent_packComponents, unpackMantissa_packComponents,
      unpackSign_packComponents]
    rw [if_neg (by decide), if_pos trivial, dif_neg notZero]
    simp only [restored]
    rfl

/-- The double with some parts. -/
def ofParts (parts : UnpackedFloat) : Float :=
  .ofModel (.pack parts)

/-- A double is the double with its parts. -/
theorem ofParts_unpack (x : Float) : ofParts x.toModel.unpack = x := by
  rw [ofParts, pack_unpack]

/-- A sign in front of a magnitude. -/
theorem neg_ofParts_finite {mantissa : Nat} {exponent : Int} (positive : 0 < mantissa)
    (canonical : Canonical mantissa exponent) :
    -ofParts (.finite .positive mantissa exponent positive) =
      ofParts (.finite .negative mantissa exponent positive) := by
  change Float.ofModel (.pack (UnpackedFloat.neg (Float.Model.pack _).unpack)) = _
  rw [unpack_pack positive canonical]
  rfl

theorem neg_ofParts_zero : -ofParts (.zero .positive) = ofParts (.zero .negative) := by
  rfl

end AccelProfile.Double
