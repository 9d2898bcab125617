import Mathlib
import Rulebook.Double.Exact
import Rulebook.Double.Nearest

/-!
# What is rounded is a number

A double that is rounded to is made from bits whose exponent is full only if their fraction is
empty: what is too large becomes infinite, and nothing becomes a NaN.
-/

namespace Rulebook
namespace Double

open Float.Model (Format UnpackedFloat)

/-! ## Fields -/

theorem toNat_unpackExponent (bits : BitVec Format.binary64.numBits) :
    (UnpackedFloat.unpackExponent bits).toNat = bits.toNat / 2 ^ 52 % 2 ^ 11 := by
  simp only [UnpackedFloat.unpackExponent, BitVec.toNat_cast, BitVec.extractLsb_toNat,
    Nat.shiftRight_eq_div_pow]

theorem toNat_unpackMantissa (bits : BitVec Format.binary64.numBits) :
    (UnpackedFloat.unpackMantissa bits).toNat = bits.toNat % 2 ^ 52 := by
  simp only [UnpackedFloat.unpackMantissa, BitVec.toNat_cast, BitVec.extractLsb_toNat,
    Nat.shiftRight_zero]

theorem toBitVec_ofBits (bits : UInt64) :
    (Float.ofBits bits).toBits.toBitVec =
      UnpackedFloat.pack Format.binary64 (UnpackedFloat.unpack Format.binary64 bits.toBitVec) := rfl

/-- Only a NaN is packed with a full exponent and a fraction. -/
theorem unpackMantissa_pack {x : UnpackedFloat} (hx : x ≠ .notANumber) :
    UnpackedFloat.unpackExponent (UnpackedFloat.pack Format.binary64 x) = -1#11 →
      UnpackedFloat.unpackMantissa (UnpackedFloat.pack Format.binary64 x) = 0#52 := by
  fun_cases UnpackedFloat.pack Format.binary64 x with
  | case1 => exact absurd rfl hx
  | case2 sign => simp [UnpackedFloat.packedInfinity]
  | case3 sign => simp [UnpackedFloat.packedZero]
  | case4 sign => simp [UnpackedFloat.packedInfinity]
  | case5 sign mantissa exponent hpos actual biased hbiased hnormal =>
      intro hexponent
      rw [UnpackedFloat.unpackExponent_packComponents] at hexponent
      have hfull := congrArg BitVec.toNat hexponent
      have hlt : biased < 2 ^ 11 := by
        change ¬2 ^ 11 ≤ biased + 1 at hbiased
        omega
      change biased % 2 ^ 11 = 2047 at hfull
      rw [Nat.mod_eq_of_lt hlt] at hfull
      exact absurd (by rw [hfull]; decide) hbiased
  | case6 sign mantissa exponent hpos actual biased hbiased hnormal =>
      intro hexponent
      rw [UnpackedFloat.unpackExponent_packComponents] at hexponent
      exact absurd hexponent (by decide)

theorem unpack_eq_notANumber {bits : BitVec Format.binary64.numBits}
    (hbits : UnpackedFloat.unpack Format.binary64 bits = .notANumber) :
    UnpackedFloat.unpackExponent bits = -1#11 ∧
      UnpackedFloat.unpackMantissa bits ≠ 0#52 := by
  unfold UnpackedFloat.unpack at hbits
  simp only at hbits
  split_ifs at hbits with hexponent hmantissa
  exact ⟨hexponent, hmantissa⟩

/-- A double is a number if its exponent is full only where its fraction is empty. -/
theorem magnitude?_ne_none {x : Float} (hx : exponentField x = 2047 → fractionField x = 0) :
    magnitude? x ≠ none := by
  rw [magnitude?]
  by_cases hexponent : exponentField x = 2047
  · simp [hexponent, hx hexponent]
  · simp [hexponent]

theorem magnitude?_ofBits {bits : UInt64}
    (hbits : bits.toNat / 2 ^ 52 % 2 ^ 11 = 2047 → bits.toNat % 2 ^ 52 = 0) :
    magnitude? (Float.ofBits bits) ≠ none := by
  have hnumber : UnpackedFloat.unpack Format.binary64 bits.toBitVec ≠ .notANumber := by
    intro hnan
    obtain ⟨hexponent, hmantissa⟩ := unpack_eq_notANumber hnan
    have hfull := toNat_unpackExponent bits.toBitVec
    rw [hexponent] at hfull
    apply hmantissa
    apply BitVec.eq_of_toNat_eq
    rw [toNat_unpackMantissa]
    exact hbits hfull.symm
  apply magnitude?_ne_none
  intro hexponent
  have hpacked := unpackMantissa_pack hnumber (BitVec.eq_of_toNat_eq (by
    rw [← toBitVec_ofBits, toNat_unpackExponent]
    exact hexponent))
  have hfraction := toNat_unpackMantissa (Float.ofBits bits).toBits.toBitVec
  rw [toBitVec_ofBits, hpacked] at hfraction
  exact hfraction.symm

/-! ## Rounding -/

theorem magnitude?_bitsOf (negative : Bool) (significand : Nat) (grid : Int) :
    magnitude? (Float.ofBits (bitsOf negative significand grid)) ≠ none := by
  apply magnitude?_ofBits
  have hpow : ∀ n, Nat.pow 2 n = 2 ^ n := fun _ => rfl
  simp only [bitsOf, hpow, UInt64.toNat_ofNat']
  generalize (grid + 1074).toNat * 2 ^ 52 + significand = body
  intro hfull
  cases negative <;> simp only [Bool.false_eq_true, if_false, if_true] at hfull ⊢ <;> omega

theorem magnitude?_ofQuotient (negative : Bool) (num den : Nat) :
    magnitude? (ofQuotient negative num den) ≠ none := by
  rw [ofQuotient]
  split_ifs <;> exact magnitude?_bitsOf _ _ _

/-- Every decimal is read as a number. -/
theorem magnitude?_ofDecimal (negative : Bool) (digits : Nat) (exponent : Int) :
    magnitude? (ofDecimal negative digits exponent) ≠ none := by
  rw [ofDecimal]
  split_ifs <;> exact magnitude?_ofQuotient _ _ _

end Double
end Rulebook
