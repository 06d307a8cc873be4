import Mathlib.Algebra.Order.Field.Power
import Mathlib.Data.Int.Log
import Mathlib.Data.Rat.Floor
import Mathlib.Tactic.FieldSimp
import Mathlib.Tactic.Linarith
import Mathlib.Tactic.NormNum
import Mathlib.Tactic.Positivity
import Mathlib.Tactic.Ring

/-!
# Rounding to binary64

The operations on binary64 numbers compute a mantissa with all bits that fit, remember where the
exact value lies beyond it, and round to the nearest mantissa, to the even one of two. Here that is
said about the exact value as a rational: rounding takes it to the number that is nearest among
those with 53 bits (`roundWithAccuracy_eq`).
-/

namespace Stylesheet.Number

open Float.Model Float.Model.UnpackedFloat

/-! ## Where a value lies beyond a mantissa -/

/-- What a mantissa lacks of a value, in units of its last place, is as its accuracy tells. -/
def Describes : Accuracy → ℚ → Prop
  | .exact, beyond => beyond = 0
  | .inexact .lt, beyond => 0 < beyond ∧ 2 * beyond < 1
  | .inexact .eq, beyond => 2 * beyond = 1
  | .inexact .gt, beyond => 1 < 2 * beyond ∧ beyond < 1

/-- A mantissa with its residual bits stands for a value. -/
def Represents (m : ExtendedMantissa) (v : ℚ) : Prop := Describes m.accuracy (v - m.mantissa)

theorem represents_ofMantissaAndAccuracy {m : ℕ} {accuracy : Accuracy} {v : ℚ}
    (h : Describes accuracy (v - m)) :
    Represents (.ofMantissaAndAccuracy m accuracy) v := by
  unfold Represents
  cases accuracy with
  | exact => exact h
  | inexact order => cases order <;> exact h

/-- The bit that is shifted out decides on which side of one half the value lies. -/
theorem Represents.shiftRightOne {m : ExtendedMantissa} {v : ℚ} (h : Represents m (2 * v)) :
    Represents m.shiftRightOne v := by
  obtain ⟨m, roundBit, stickyBit⟩ := m
  have hm : (m : ℚ) = 2 * (m / 2 : ℕ) + (m % 2 : ℕ) := by exact_mod_cast (Nat.div_add_mod m 2).symm
  have hone : (1 != 0) = true := rfl
  simp only [Represents, ExtendedMantissa.accuracy, ExtendedMantissa.shiftRightOne] at h ⊢
  rw [hm] at h
  cases roundBit <;> cases stickyBit <;> rcases Nat.mod_two_eq_zero_or_one m with hbit | hbit <;>
    simp only [hbit, hone, Describes, Nat.cast_zero, Nat.cast_one, Bool.or_true, Bool.or_false,
      bne_self_eq_false] at h ⊢ <;>
    grind

theorem Represents.shiftRight {m : ExtendedMantissa} {v : ℚ} {n : ℕ}
    (h : Represents m (2 ^ n * v)) : Represents (m >>> n) v := by
  induction n generalizing v with
  | zero => rwa [pow_zero, one_mul] at h
  | succ n ih =>
    rw [pow_succ, mul_assoc] at h
    exact (ih h).shiftRightOne

/-! ## The nearest mantissa -/

/-- The nearest natural number, the even one of two. -/
def roundEven (v : ℚ) : ℕ :=
  let below := ⌊v⌋₊
  let beyond := v - below
  if 2 * beyond < 1 then below else if 2 * beyond = 1 then below + below % 2 else below + 1

theorem floor_eq_of_describes {accuracy : Accuracy} {m : ℕ} {v : ℚ}
    (h : Describes accuracy (v - m)) : ⌊v⌋₊ = m := by
  have hbounds : (m : ℚ) ≤ v ∧ v < m + 1 := by
    cases accuracy with
    | exact =>
      simp only [Describes] at h
      constructor <;> linarith
    | inexact order =>
      cases order <;> simp only [Describes] at h <;> constructor <;> linarith
  have hm : (0 : ℚ) ≤ m := m.cast_nonneg
  exact (Nat.floor_eq_iff (hm.trans hbounds.1)).mpr hbounds

theorem Represents.roundedMantissa {m : ExtendedMantissa} {v : ℚ} (h : Represents m v) :
    m.roundedMantissa = roundEven v := by
  have hfloor := floor_eq_of_describes h
  obtain ⟨m, roundBit, stickyBit⟩ := m
  simp only at hfloor
  rw [roundEven, hfloor]
  simp only [Represents, ExtendedMantissa.accuracy] at h
  cases roundBit <;> cases stickyBit <;>
    simp only [Describes, ExtendedMantissa.roundedMantissa, ExtendedMantissa.accuracy,
      Accuracy.roundToNearestEven] at h ⊢ <;>
    grind

theorem roundEven_natCast (n : ℕ) : roundEven n = n := by
  simp [roundEven]

theorem abs_roundEven_sub_le {v : ℚ} (hv : 0 ≤ v) : |(roundEven v : ℚ) - v| ≤ 1 / 2 := by
  have hle := Nat.floor_le hv
  have hlt := Nat.lt_floor_add_one v
  have hparity : ⌊v⌋₊ % 2 ≤ 1 := Nat.le_of_lt_succ (Nat.mod_lt _ two_pos)
  have hparity' : ((⌊v⌋₊ % 2 : ℕ) : ℚ) ≤ 1 := by exact_mod_cast hparity
  have hnonneg : (0 : ℚ) ≤ (⌊v⌋₊ % 2 : ℕ) := Nat.cast_nonneg _
  rw [roundEven, abs_le]
  split_ifs with hbelow hhalf
  · constructor <;> linarith
  · push_cast at *
    constructor <;> linarith
  · push_cast
    constructor <;> linarith

/-- No other natural number is nearer than one half. -/
theorem roundEven_eq_of_near {v : ℚ} {n : ℕ} (hv : 0 ≤ v) (h : |(n : ℚ) - v| < 1 / 2) :
    roundEven v = n := by
  have hround := abs_le.mp (abs_roundEven_sub_le hv)
  have hnear := abs_lt.mp h
  have hlt : (roundEven v : ℚ) < n + 1 := by linarith [hround.2, hnear.1]
  have hgt : (n : ℚ) < roundEven v + 1 := by linarith [hround.1, hnear.2]
  norm_cast at hlt hgt
  omega

/-! ## Normal numbers -/

/-- The positive numbers with all 53 bits. There is no bound to their exponents here. -/
@[ext]
structure Normal where
  mantissa : ℕ
  exponent : ℤ
  le_mantissa : 2 ^ 52 ≤ mantissa
  mantissa_lt : mantissa < 2 ^ 53
  le_exponent : -1074 ≤ exponent

namespace Normal

/-- The exact value. -/
def size (n : Normal) : ℚ := n.mantissa * 2 ^ n.exponent

theorem mantissa_pos (n : Normal) : 0 < n.mantissa :=
  lt_of_lt_of_le (by norm_num) n.le_mantissa

def unpacked (n : Normal) : UnpackedFloat := .finite .positive n.mantissa n.exponent n.mantissa_pos

end Normal

/-- The least normal number. Below it there are fewer bits. -/
def leastNormal : ℚ := 2 ^ (-1022 : ℤ)

/-- The exponent of the last of the 53 bits of a value. -/
def lastPlace (v : ℚ) : ℤ := Int.log 2 v - 52

theorem leastNormal_pos : 0 < leastNormal := by
  unfold leastNormal
  positivity

section

variable {v : ℚ} (hv : leastNormal ≤ v)

include hv

theorem le_lastPlace : -1074 ≤ lastPlace v := by
  have hlog : -1022 ≤ Int.log 2 v :=
    (Int.zpow_le_iff_le_log one_lt_two (leastNormal_pos.trans_le hv)).mp hv
  rw [lastPlace]
  omega

/-- In units of its last place, a value is that of a mantissa. -/
theorem div_lastPlace_mem : 2 ^ 52 ≤ v / 2 ^ lastPlace v ∧ v / 2 ^ lastPlace v < 2 ^ 53 := by
  have hpos : 0 < v := leastNormal_pos.trans_le hv
  have hle := Int.zpow_log_le_self one_lt_two hpos
  have hlt := Int.lt_zpow_succ_log_self one_lt_two v
  have hunit : (0 : ℚ) < 2 ^ lastPlace v := by positivity
  have hlow : (2 : ℚ) ^ 52 * 2 ^ lastPlace v = 2 ^ Int.log 2 v := by
    rw [← zpow_natCast, ← zpow_add₀ two_ne_zero, lastPlace]
    congr 1
    push_cast
    ring
  have hhigh : (2 : ℚ) ^ 53 * 2 ^ lastPlace v = 2 ^ (Int.log 2 v + 1) := by
    rw [← zpow_natCast, ← zpow_add₀ two_ne_zero, lastPlace]
    congr 1
    push_cast
    ring
  rw [le_div_iff₀ hunit, div_lt_iff₀ hunit, hlow, hhigh]
  exact ⟨by exact_mod_cast hle, by exact_mod_cast hlt⟩

theorem roundEven_lastPlace_mem :
    2 ^ 52 ≤ roundEven (v / 2 ^ lastPlace v) ∧ roundEven (v / 2 ^ lastPlace v) ≤ 2 ^ 53 := by
  obtain ⟨hle, hlt⟩ := div_lastPlace_mem hv
  have hround := abs_le.mp (abs_roundEven_sub_le (le_trans (by norm_num) hle))
  have hlow : (2 : ℚ) ^ 52 < roundEven (v / 2 ^ lastPlace v) + 1 := by linarith [hround.1]
  have hhigh : (roundEven (v / 2 ^ lastPlace v) : ℚ) < 2 ^ 53 + 1 := by linarith [hround.2]
  norm_cast at hlow hhigh
  omega

end

/-- The nearest normal number, the one with an even mantissa of two. A mantissa that is rounded up
to the next power of two has one bit too many. -/
def nearest (v : ℚ) (hv : leastNormal ≤ v) : Normal :=
  have hround := roundEven_lastPlace_mem hv
  have hplace := le_lastPlace hv
  if h : roundEven (v / 2 ^ lastPlace v) = 2 ^ 53 then
    ⟨2 ^ 52, lastPlace v + 1, le_refl _, by norm_num, by omega⟩
  else
    ⟨roundEven (v / 2 ^ lastPlace v), lastPlace v, hround.1, by omega, hplace⟩

section

variable {v : ℚ} (hv : leastNormal ≤ v)

theorem size_nearest : (nearest v hv).size = roundEven (v / 2 ^ lastPlace v) * 2 ^ lastPlace v := by
  rw [nearest]
  split_ifs with h
  · rw [h, Normal.size, zpow_add_one₀ two_ne_zero]
    push_cast
    ring
  · rfl

theorem abs_size_nearest_sub_le : |(nearest v hv).size - v| ≤ 2 ^ lastPlace v / 2 := by
  have hunit : (0 : ℚ) < 2 ^ lastPlace v := by positivity
  have hround := abs_roundEven_sub_le (le_trans (by norm_num) (div_lastPlace_mem hv).1)
  have hscaled : (nearest v hv).size - v =
      (roundEven (v / 2 ^ lastPlace v) - v / 2 ^ lastPlace v) * 2 ^ lastPlace v := by
    rw [size_nearest, sub_mul, div_mul_cancel₀ v hunit.ne']
  rw [hscaled, abs_mul, abs_of_pos hunit]
  linarith [mul_le_mul_of_nonneg_right hround hunit.le]

/-- Rounding errs by at most one half in the 53rd bit. -/
theorem abs_size_nearest_sub_le_mul : |(nearest v hv).size - v| ≤ v / 2 ^ 53 := by
  have hunit : (0 : ℚ) < 2 ^ lastPlace v := by positivity
  have hlow := (le_div_iff₀ hunit).mp (div_lastPlace_mem hv).1
  linarith [abs_size_nearest_sub_le hv]

/-- A value with no bits beyond the last place is not changed. -/
theorem size_nearest_of_multiple {n : ℕ} (h : v = n * 2 ^ lastPlace v) :
    (nearest v hv).size = v := by
  have hunit : (0 : ℚ) < 2 ^ lastPlace v := by positivity
  have hquotient : v / 2 ^ lastPlace v = n := (div_eq_iff hunit.ne').mpr h
  rw [size_nearest, hquotient, roundEven_natCast, ← h]

omit hv in
theorem log_eq {k : ℤ} (hlow : 2 ^ k ≤ v) (hhigh : v < 2 ^ (k + 1)) : Int.log 2 v = k := by
  have hpos : 0 < v := lt_of_lt_of_le (by positivity) hlow
  have hle := (Int.zpow_le_iff_le_log one_lt_two hpos).mp (by exact_mod_cast hlow)
  have hlt := (Int.lt_zpow_iff_log_lt one_lt_two hpos).mp (by exact_mod_cast hhigh)
  omega

omit hv in
theorem lastPlace_eq {e : ℤ} (hlow : 2 ^ (e + 52) ≤ v) (hhigh : v < 2 ^ (e + 53)) :
    lastPlace v = e := by
  rw [lastPlace, log_eq hlow (by rwa [add_assoc])]
  omega

/-- A value that is nearer to a normal number than one half of its last place, and not below the
power of two under it, is rounded to it. -/
theorem nearest_eq_of_near (n : Normal) (hlow : 2 ^ (n.exponent + 52) ≤ v)
    (hnear : |n.size - v| < 2 ^ n.exponent / 2) : nearest v hv = n := by
  have hunit : (0 : ℚ) < 2 ^ n.exponent := by positivity
  have hmantissa : (n.mantissa : ℚ) + 1 ≤ 2 ^ 53 := by exact_mod_cast n.mantissa_lt
  have hhigh : v < 2 ^ (n.exponent + 53) := by
    have hpower : (2 : ℚ) ^ (n.exponent + 53) = 2 ^ 53 * 2 ^ n.exponent := by
      rw [zpow_add₀ two_ne_zero, mul_comm]
      norm_cast
    rw [Normal.size] at hnear
    rw [hpower]
    linarith [(abs_lt.mp hnear).1, mul_le_mul_of_nonneg_right hmantissa hunit.le]
  have hplace : lastPlace v = n.exponent := lastPlace_eq hlow hhigh
  have hround : roundEven (v / 2 ^ lastPlace v) = n.mantissa := by
    refine roundEven_eq_of_near (le_trans (by norm_num) (div_lastPlace_mem hv).1) ?_
    have hscaled : (n.mantissa : ℚ) - v / 2 ^ lastPlace v = (n.size - v) / 2 ^ n.exponent := by
      rw [hplace, Normal.size, sub_div, mul_div_cancel_right₀ _ hunit.ne']
    rw [hscaled, abs_div, abs_of_pos hunit, div_lt_iff₀ hunit]
    linarith
  have hcarry : roundEven (v / 2 ^ lastPlace v) ≠ 2 ^ 53 := by
    rw [hround]
    exact n.mantissa_lt.ne
  rw [nearest, dif_neg hcarry]
  exact Normal.ext hround hplace

end

theorem Normal.zpow_le_size (n : Normal) : 2 ^ (n.exponent + 52) ≤ n.size := by
  have hmantissa : (2 : ℚ) ^ 52 ≤ n.mantissa := by exact_mod_cast n.le_mantissa
  rw [zpow_add₀ two_ne_zero, mul_comm, Normal.size]
  exact mul_le_mul_of_nonneg_right hmantissa (by positivity)

theorem Normal.leastNormal_le_size (n : Normal) : leastNormal ≤ n.size := by
  refine le_trans (zpow_le_zpow_right₀ one_le_two ?_) n.zpow_le_size
  have hexponent := n.le_exponent
  omega

theorem nearest_size (n : Normal) : nearest n.size n.leastNormal_le_size = n := by
  refine nearest_eq_of_near _ n n.zpow_le_size ?_
  rw [sub_self, abs_zero]
  positivity

/-! ## Rounding as the operations do it -/

theorem minExponent_binary64 : Format.binary64.minExponent = -1074 := by decide

theorem roundWithAccuracy_of_shifts {m m' : ℕ} {e e' : ℤ} {accuracy : Accuracy}
    {shifted : ExtendedMantissa} {last : ExtendedMantissa × ℤ}
    (hfirst : shiftToTargetExponent Format.binary64 m e accuracy = (shifted, e'))
    (hround : shifted.roundedMantissa = m')
    (hlast : shiftToTargetExponent Format.binary64 m' e' .exact = last)
    (hpos : 0 < last.1.mantissa) :
    roundWithAccuracy Format.binary64 .positive m e accuracy =
      .finite .positive last.1.mantissa last.2 hpos := by
  subst hround hlast
  rw [roundWithAccuracy, hfirst]
  exact dif_neg hpos.ne'

/-- A mantissa of 53 bits is not shifted. -/
theorem shiftToTargetExponent_normal {m : ℕ} {e : ℤ} (hlow : 2 ^ 52 ≤ m) (hhigh : m < 2 ^ 53)
    (he : -1074 ≤ e) :
    shiftToTargetExponent Format.binary64 m e .exact = (⟨m, false, false⟩, e) := by
  have hlog : m.log2 = 52 := (Nat.log2_eq_iff (by omega)).mpr ⟨hlow, hhigh⟩
  have hbits : (Format.binary64.mantissaBits : ℤ) = 53 := rfl
  have hshift : (Format.binary64.targetExponent (totalExponent m e) - e).toNat = 0 := by
    rw [Format.targetExponent, minExponent_binary64, hbits, totalExponent, hlog]
    omega
  rw [shiftToTargetExponent, shiftToExponent, hshift]
  simp only [Nat.cast_zero, add_zero]
  rfl

/-- A mantissa that has one bit more is shifted by that. -/
theorem shiftToTargetExponent_power {e : ℤ} (he : -1074 ≤ e) :
    shiftToTargetExponent Format.binary64 (2 ^ 53) e .exact = (⟨2 ^ 52, false, false⟩, e + 1) := by
  have hbits : (Format.binary64.mantissaBits : ℤ) = 53 := rfl
  have hshift : (Format.binary64.targetExponent (totalExponent (2 ^ 53) e) - e).toNat = 1 := by
    rw [Format.targetExponent, minExponent_binary64, hbits, totalExponent, Nat.log2_two_pow]
    omega
  rw [shiftToTargetExponent, shiftToExponent, hshift]
  rfl

/-- The first bit of a value is that of its mantissa. -/
theorem log2_add_eq {v : ℚ} {m : ℕ} {e : ℤ} (hm : m ≠ 0) (hfloor : ⌊v / 2 ^ e⌋₊ = m) :
    (m.log2 : ℤ) + e = Int.log 2 v := by
  have hunit : (0 : ℚ) < 2 ^ e := by positivity
  obtain ⟨hle, hlt⟩ := (Nat.floor_eq_iff' hm).mp hfloor
  rw [le_div_iff₀ hunit] at hle
  rw [div_lt_iff₀ hunit] at hlt
  have hlow : (2 : ℚ) ^ m.log2 ≤ m := by exact_mod_cast Nat.log2_self_le hm
  have hhigh : (m : ℚ) + 1 ≤ 2 ^ (m.log2 + 1) := by exact_mod_cast Nat.lt_log2_self
  symm
  apply log_eq
  · rw [zpow_add₀ two_ne_zero, zpow_natCast]
    exact le_trans (mul_le_mul_of_nonneg_right hlow hunit.le) hle
  · rw [add_right_comm, zpow_add₀ two_ne_zero]
    refine lt_of_lt_of_le hlt ?_
    exact_mod_cast mul_le_mul_of_nonneg_right hhigh hunit.le

section

variable {v : ℚ} (hv : leastNormal ≤ v)

include hv

theorem targetExponent_eq {total : ℤ} (h : total = Int.log 2 v + 1) :
    Format.binary64.targetExponent total = lastPlace v := by
  have hplace := le_lastPlace hv
  have hbits : (Format.binary64.mantissaBits : ℤ) = 53 := rfl
  rw [Format.targetExponent, minExponent_binary64, hbits, h]
  rw [lastPlace] at hplace ⊢
  omega

/-- The bits that a mantissa has too many are shifted out of it. -/
theorem shiftToTargetExponent_represents {m : ℕ} {e : ℤ} {accuracy : Accuracy}
    (h : Describes accuracy (v / 2 ^ e - m)) (he : e ≤ lastPlace v) :
    ∃ shifted, shiftToTargetExponent Format.binary64 m e accuracy = (shifted, lastPlace v) ∧
      Represents shifted (v / 2 ^ lastPlace v) := by
  have hfloor : ⌊v / 2 ^ e⌋₊ = m := floor_eq_of_describes h
  have hm : m ≠ 0 := by
    have hle : (2 : ℚ) ^ e ≤ 2 ^ lastPlace v := zpow_le_zpow_right₀ one_le_two he
    have hpos : 0 ≤ v := leastNormal_pos.le.trans hv
    have hone : 1 ≤ v / 2 ^ e :=
      le_trans (le_trans (by norm_num) (div_lastPlace_mem hv).1)
        (div_le_div_of_nonneg_left hpos (by positivity) hle)
    rw [← hfloor]
    exact (Nat.floor_pos.mpr hone).ne'
  have htotal : totalExponent m e = Int.log 2 v + 1 := by
    rw [totalExponent, add_right_comm, log2_add_eq hm hfloor]
  obtain ⟨n, hn⟩ := Int.le.dest he
  refine ⟨ExtendedMantissa.ofMantissaAndAccuracy m accuracy >>> n, ?_, .shiftRight ?_⟩
  · rw [shiftToTargetExponent, targetExponent_eq hv htotal, shiftToExponent, ← hn,
      add_sub_cancel_left, Int.toNat_natCast]
  · have hscaled : 2 ^ n * (v / 2 ^ lastPlace v) = v / 2 ^ e := by
      rw [← hn, zpow_add₀ two_ne_zero, zpow_natCast]
      field_simp
    rw [hscaled]
    exact represents_ofMantissaAndAccuracy h

/-- The operations round to the nearest number, from any mantissa with enough bits. -/
theorem roundWithAccuracy_eq {m : ℕ} {e : ℤ} {accuracy : Accuracy}
    (h : Describes accuracy (v / 2 ^ e - m)) (he : e ≤ lastPlace v) :
    roundWithAccuracy Format.binary64 .positive m e accuracy = (nearest v hv).unpacked := by
  obtain ⟨shifted, hshifted, hrepresents⟩ := shiftToTargetExponent_represents hv h he
  obtain ⟨hlow, hhigh⟩ := roundEven_lastPlace_mem hv
  have hplace := le_lastPlace hv
  by_cases hcarry : roundEven (v / 2 ^ lastPlace v) = 2 ^ 53
  · have hlast := shiftToTargetExponent_power hplace
    rw [nearest, dif_pos hcarry]
    exact roundWithAccuracy_of_shifts hshifted (hrepresents.roundedMantissa.trans hcarry) hlast
      (by norm_num)
  · have hlast := shiftToTargetExponent_normal hlow (lt_of_le_of_ne hhigh hcarry) hplace
    rw [nearest, dif_neg hcarry]
    exact roundWithAccuracy_of_shifts hshifted hrepresents.roundedMantissa hlast
      (lt_of_lt_of_le (by norm_num) hlow)

end

end Stylesheet.Number
