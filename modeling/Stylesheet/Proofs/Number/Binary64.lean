import Mathlib
import Stylesheet.Number.Shortest
import Stylesheet.Proofs.Number.Rounding

/-!
# The bits of binary64 numbers

A normal number that is not too large is packed into bits, and unpacking them gives it back
(`Normal.unpack_toFloat`, `Normal.ofFloat_toFloat`). So different numbers have different bits
(`Normal.toFloat_injective`). One that is too large is packed as an infinity
(`Normal.toFloat_eq_infinity`).
-/

namespace Stylesheet.Number

open Float.Model Float.Model.UnpackedFloat

/-- What stands for all positive values that are too large. -/
def infinity : Float := .ofModel (.pack (.infinity .positive))

namespace Normal

variable {n : Normal}

/-- The binary64 number, an infinity if the exponent is too large. -/
def toFloat (n : Normal) : Float := .ofModel (.pack n.unpacked)

/-- Whether the exponent is one of binary64. -/
def IsFinite (n : Normal) : Prop := n.exponent ≤ 971

/-- The exponent as it stands in the bits. -/
def biased (n : Normal) : ℕ := (n.exponent + 1075).toNat

theorem log2_mantissa (n : Normal) : n.mantissa.log2 = 52 :=
  (Nat.log2_eq_iff n.mantissa_pos.ne').mpr ⟨n.le_mantissa, n.mantissa_lt⟩

theorem biased_eq (n : Normal) :
    (n.exponent + Format.binary64.exponentBias + Format.binary64.mantissaBitsWithoutImplicit).toNat
      = n.biased := by
  have hbias : Format.binary64.exponentBias = 1023 := rfl
  rw [biased, hbias]
  congr 1
  push_cast
  ring

theorem biased_sub (n : Normal) : (n.biased : ℤ) - 1075 = n.exponent := by
  have hexponent := n.le_exponent
  rw [biased]
  omega

theorem biased_mem (h : n.IsFinite) : 1 ≤ n.biased ∧ n.biased ≤ 2046 := by
  have hexponent := n.le_exponent
  rw [IsFinite] at h
  rw [biased]
  omega

theorem pack_eq (h : n.IsFinite) :
    UnpackedFloat.pack Format.binary64 n.unpacked =
      packComponents Format.binary64 .positive (.ofNat 11 n.biased) (.ofNat 52 n.mantissa) := by
  have hbiased := biased_mem h
  have hfits : ¬2 ^ 11 ≤ n.biased + 1 := by omega
  rw [unpacked, UnpackedFloat.pack]
  simp only [n.log2_mantissa, n.biased_eq]
  rw [if_neg hfits]
  rfl

theorem pack_eq_infinity (h : ¬n.IsFinite) :
    UnpackedFloat.pack Format.binary64 n.unpacked = packedInfinity Format.binary64 .positive := by
  have hlarge : 2 ^ 11 ≤ n.biased + 1 := by
    rw [IsFinite] at h
    rw [biased]
    omega
  rw [unpacked, UnpackedFloat.pack]
  simp only [n.log2_mantissa, n.biased_eq]
  exact if_pos hlarge

theorem toNat_packComponents (e : BitVec 11) (m : BitVec 52) :
    (packComponents Format.binary64 .positive e m).toNat = e.toNat * 2 ^ 52 + m.toNat := by
  have hm : m.toNat < 2 ^ 52 := m.isLt
  have happend : (packComponents Format.binary64 .positive e m).toNat =
      (0#1 ++ e ++ m).toNat := rfl
  rw [happend, BitVec.toNat_append, BitVec.toNat_append, ← Nat.shiftLeft_add_eq_or_of_lt hm]
  simp [Nat.shiftLeft_eq]

/-- The parts that the bits of a number tell are its own. -/
theorem ofFloat_toFloat (h : n.IsFinite) :
    Magnitude.ofFloat n.toFloat = ⟨n.mantissa, n.exponent⟩ := by
  obtain ⟨hlow, hhigh⟩ := biased_mem h
  have hmantissa := n.le_mantissa
  have hmantissa' := n.mantissa_lt
  have hbits : n.toFloat.toBits.toNat = n.biased * 2 ^ 52 + (n.mantissa - 2 ^ 52) := by
    have hpacked : n.toFloat.toBits.toNat =
        (UnpackedFloat.pack Format.binary64 n.unpacked).toNat := rfl
    rw [hpacked, pack_eq h, toNat_packComponents, BitVec.toNat_ofNat, BitVec.toNat_ofNat]
    omega
  have hfraction : (n.biased * 2 ^ 52 + (n.mantissa - 2 ^ 52)) % 2 ^ 52 = n.mantissa - 2 ^ 52 := by
    omega
  have hquotient : (n.biased * 2 ^ 52 + (n.mantissa - 2 ^ 52)) / 2 ^ 52 % 2 ^ 11 = n.biased := by
    omega
  have hwhole : 2 ^ 52 + (n.mantissa - 2 ^ 52) = n.mantissa := by omega
  rw [Magnitude.ofFloat, hbits]
  simp only [Nat.pow_eq, hfraction, hquotient, hwhole]
  rw [if_neg (by omega), n.biased_sub]

theorem unpack_packComponents {e : BitVec 11} (he : e ≠ 0#11) (he' : e ≠ -1#11) (m : BitVec 52)
    {mantissa : ℕ} {exponent : ℤ} (hpos : 0 < mantissa) (hmantissa : (1#1 ++ m).toNat = mantissa)
    (hexponent : (e.toNat : ℤ) - 1075 = exponent) :
    UnpackedFloat.unpack Format.binary64 (packComponents Format.binary64 .positive e m) =
      .finite .positive mantissa exponent hpos := by
  subst hmantissa hexponent
  rw [UnpackedFloat.unpack]
  simp only [unpackMantissa_packComponents, unpackExponent_packComponents,
    unpackSign_packComponents, Sign.ofBitVec_toBitVec]
  rw [if_neg he', if_neg he]
  rfl

/-- Packing a number and unpacking it gives it back. -/
theorem unpack_toFloat (h : n.IsFinite) : n.toFloat.toModel.unpack = n.unpacked := by
  obtain ⟨hlow, hhigh⟩ := biased_mem h
  have hmantissa := n.le_mantissa
  have hmantissa' := n.mantissa_lt
  have hunpack : n.toFloat.toModel.unpack = UnpackedFloat.unpack Format.binary64
      (UnpackedFloat.pack Format.binary64 n.unpacked) := rfl
  have hbiased : (BitVec.ofNat 11 n.biased).toNat = n.biased := by
    rw [BitVec.toNat_ofNat]
    omega
  rw [hunpack, pack_eq h, unpacked]
  refine unpack_packComponents ?_ ?_ _ n.mantissa_pos ?_ ?_
  · intro hzero
    have hbiased' := congrArg BitVec.toNat hzero
    rw [hbiased, BitVec.toNat_zero] at hbiased'
    omega
  · intro hones
    have hbiased' := congrArg BitVec.toNat hones
    have hall : (-1#11 : BitVec 11).toNat = 2047 := rfl
    rw [hbiased, hall] at hbiased'
    omega
  · rw [BitVec.toNat_append, BitVec.toNat_ofNat, ← Nat.shiftLeft_add_eq_or_of_lt (by omega)]
    simp only [BitVec.toNat_ofNat, Nat.shiftLeft_eq]
    omega
  · rw [hbiased, n.biased_sub]

theorem toFloat_eq_infinity {n : Normal} (h : ¬n.IsFinite) : n.toFloat = infinity := by
  rw [toFloat, infinity, Float.Model.pack, Float.Model.pack]
  simp only [pack_eq_infinity h]
  rfl

theorem unpack_zero : (0 : Float).toModel.unpack = .zero .positive := by
  have hzero : (0 : Float) = .ofModel (.pack (.zero .positive)) := by decide +kernel
  rw [hzero]
  exact unpack_packedZero

section

variable {n : Normal} (h : n.IsFinite)

include h

theorem isNaN_toFloat : n.toFloat.isNaN = false := by
  have hmodel : n.toFloat.isNaN = n.toFloat.toModel.unpack.isNaN := rfl
  rw [hmodel, unpack_toFloat h]
  rfl

theorem isInf_toFloat : n.toFloat.isInf = false := by
  have hmodel : n.toFloat.isInf = n.toFloat.toModel.unpack.isInf := rfl
  rw [hmodel, unpack_toFloat h]
  rfl

theorem isFinite_toFloat : n.toFloat.isFinite = true := by
  have hmodel : n.toFloat.isFinite = n.toFloat.toModel.unpack.isFinite := rfl
  rw [hmodel, unpack_toFloat h]
  rfl

theorem not_toFloat_lt_zero : ¬n.toFloat < 0 := by
  have hmodel : n.toFloat < 0 ↔
      n.toFloat.toModel.unpack.lt (0 : Float).toModel.unpack = true := decide_eq_true_iff
  rw [hmodel, unpack_toFloat h, unpack_zero]
  exact Bool.false_ne_true

theorem toFloat_beq_zero : (n.toFloat == 0) = false := by
  have hmodel : (n.toFloat == 0) =
      n.toFloat.toModel.unpack.beq (0 : Float).toModel.unpack := rfl
  rw [hmodel, unpack_toFloat h, unpack_zero]
  rfl

theorem abs_toFloat : n.toFloat.abs = n.toFloat := by
  have hmodel : n.toFloat.abs = .ofModel (.pack n.toFloat.toModel.unpack.abs) := rfl
  rw [hmodel, unpack_toFloat h]
  rfl

theorem toFloat_ne_zero : n.toFloat ≠ 0 := by
  intro hzero
  have hunpacked : n.unpacked = .zero .positive := by
    rw [← unpack_toFloat h, hzero, unpack_zero]
  exact UnpackedFloat.noConfusion hunpacked

end

theorem isFinite_of_toFloat {n : Normal} (h : n.toFloat.isFinite = true) : n.IsFinite := by
  by_contra hinfinite
  rw [toFloat_eq_infinity hinfinite] at h
  exact absurd h (by decide)

/-- Two numbers are told apart by their bits, also if one of them might be too large. -/
theorem toFloat_injective {n n' : Normal} (h : n.IsFinite) (heq : n.toFloat = n'.toFloat) :
    n = n' := by
  have h' : n'.IsFinite := isFinite_of_toFloat (heq ▸ isFinite_toFloat h)
  have hunpacked : n.unpacked = n'.unpacked := by
    rw [← unpack_toFloat h, heq, unpack_toFloat h']
  rw [unpacked, unpacked, UnpackedFloat.finite.injEq] at hunpacked
  exact Normal.ext hunpacked.2.1 hunpacked.2.2

end Normal

end Stylesheet.Number
