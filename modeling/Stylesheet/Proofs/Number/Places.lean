import Stylesheet.Number.Display
import Stylesheet.Proofs.Number.ReadBack

/-!
# Rounding to ten places

Rounding a number to ten places multiplies it by `10 ^ 10`, rounds to an integer and divides again,
and each of these rounds to binary64. Below `2 ^ 18` the errors are so small that the number of a
decimal with ten places comes out again (`toPlaces_nearest`).
-/

namespace Stylesheet.Number

/-- Rounding errs by at most one half in the 53rd bit of a power of two that is greater. -/
theorem abs_size_nearest_sub_le_of_lt {v : ℚ} {k : ℕ} (hv : leastNormal ≤ v) (h : v < 2 ^ k) :
    |(nearest v hv).size - v| ≤ 2 ^ k / 2 ^ 54 := by
  have hlog := (Int.lt_zpow_iff_log_lt one_lt_two (leastNormal_pos.trans_le hv)).mp
    (show v < ((2 : ℕ) : ℚ) ^ (k : ℤ) by exact_mod_cast h)
  have hplace : (2 : ℚ) ^ lastPlace v ≤ 2 ^ ((k : ℤ) - 53) :=
    zpow_le_zpow_right₀ one_le_two (by rw [lastPlace]; omega)
  have hpower : (2 : ℚ) ^ ((k : ℤ) - 53) = 2 ^ k / 2 ^ 53 := by
    rw [zpow_sub₀ two_ne_zero, zpow_natCast]
    norm_cast
  linarith [abs_size_nearest_sub_le hv]

theorem ofNat_eq_nearest {n : ℕ} (hn : 0 < n) :
    Float.ofNat n = (nearest n (leastNormal_le_natCast hn)).toFloat :=
  ofScientific_eq (s := false) (e := 0) hn (by simp) _

theorem holds_ofNat {n : ℕ} (hn : 0 < n) (h : n < 2 ^ 53) : Holds (Float.ofNat n) n := by
  rw [ofNat_eq_nearest hn, ← ofNat_eq hn]
  exact holds_natCast hn h

theorem leastNormal_le_half : leastNormal ≤ 1 / 2 := by
  have hhalf : (2 : ℚ) ^ (-1 : ℤ) = 1 / 2 := by norm_num
  rw [← hhalf]
  exact zpow_le_zpow_right₀ one_le_two (by norm_num)

theorem holds_scale : Holds scale (10 ^ 10) := by
  have hscale : scale = .ofModel (.ofNat (10 ^ 10)) := by decide +kernel
  have hholds := holds_natCast (n := 10 ^ 10) (by norm_num) (by norm_num)
  rw [hscale]
  exact_mod_cast hholds

theorem roundHalfAway_toFloat {n : Normal} (h : n.IsFinite) :
    roundHalfAway n.toFloat = Float.ofNat ⌊n.size + 1 / 2⌋₊ := by
  rw [roundHalfAway, if_neg (Normal.not_toFloat_lt_zero h), Normal.ofFloat_toFloat h, round_eq]

/-- Below `2 ^ 18` a decimal with ten places is so near to its number, and their products with
`10 ^ 10` to each other, that rounding to an integer gives all its digits. -/
theorem toPlaces_nearest {v : ℚ} {N : ℕ} (hv : leastNormal ≤ v) (hN : v * 10 ^ 10 = N)
    (hlt : v < 2 ^ 18) : toPlaces (nearest v hv).toFloat = (nearest v hv).toFloat := by
  have hpos : (1 : ℚ) ≤ N := by
    have hpos : (0 : ℚ) < N := by
      rw [← hN]
      have := leastNormal_pos.trans_le hv
      positivity
    exact_mod_cast Nat.one_le_iff_ne_zero.mpr (by exact_mod_cast hpos.ne')
  -- The number differs from the decimal by at most `2 ^ -36`, hence their products by `0.15`.
  have herror := abs_le.mp (abs_size_nearest_sub_le_of_lt hv hlt)
  norm_num at herror
  have hfinite : (nearest v hv).IsFinite := Normal.isFinite_nearest hv <|
    hlt.le.trans (pow_le_pow_right₀ one_le_two (by norm_num))
  have hproduct : leastNormal ≤ (nearest v hv).size * 10 ^ 10 :=
    leastNormal_le_half.trans (by linarith [herror.1])
  have hproductLt : (nearest v hv).size * 10 ^ 10 < 2 ^ 52 := by
    linarith [herror.2]
  -- The product is rounded to a multiple of `1 / 2`, so that it changes by at most `1 / 4`.
  have hrounded := abs_le.mp (abs_size_nearest_sub_le_of_lt hproduct hproductLt)
  norm_num at hrounded
  have hfinite' : (nearest _ hproduct).IsFinite := Normal.isFinite_nearest hproduct <|
    hproductLt.le.trans (pow_le_pow_right₀ one_le_two (by norm_num))
  have hfloor : ⌊(nearest _ hproduct).size + 1 / 2⌋₊ = N := by
    rw [Nat.floor_eq_iff (by linarith [hrounded.1])]
    constructor <;> linarith [herror.1, herror.2, hrounded.1, hrounded.2]
  have hquotient : (N : ℚ) / 10 ^ 10 = v := by
    rw [← hN]
    field_simp
  have hinteger : Holds (Float.ofNat N) N := by
    have hsmall : (N : ℚ) < 2 ^ 53 := by linarith
    exact holds_ofNat (by exact_mod_cast hpos) (by exact_mod_cast hsmall)
  rw [toPlaces, Holds.mul ⟨_, hfinite, rfl, rfl⟩ holds_scale hproduct,
    roundHalfAway_toFloat hfinite', hfloor, hinteger.div holds_scale (hquotient ▸ hv)]
  simp only [hquotient]

theorem roundHalfAway_infinity : roundHalfAway infinity = infinity := by decide +kernel

theorem infinity_div_scale : infinity / scale = infinity := by decide +kernel

/-- Rounding gives a number, or an infinity, if there is anything in the ten places. -/
theorem exists_toPlaces_eq {n : Normal} (h : n.IsFinite) (hlow : 3 / 4 ≤ n.size * 10 ^ 10) :
    ∃ y : Normal, toPlaces n.toFloat = y.toFloat := by
  have hproduct : leastNormal ≤ n.size * 10 ^ 10 := leastNormal_le_half.trans (by linarith)
  rw [toPlaces, Holds.mul ⟨_, h, rfl, rfl⟩ holds_scale hproduct]
  by_cases hfinite : (nearest _ hproduct).IsFinite
  · have hinteger : 1 ≤ ⌊(nearest _ hproduct).size + 1 / 2⌋₊ := by
      have herror := abs_le.mp (abs_size_nearest_sub_le_mul hproduct)
      exact Nat.floor_pos.mpr (by linarith [herror.1])
    rw [roundHalfAway_toFloat hfinite, ofNat_eq_nearest hinteger]
    by_cases hfinite' : (nearest _ (leastNormal_le_natCast hinteger)).IsFinite
    · have hquotient : leastNormal ≤
          (nearest _ (leastNormal_le_natCast hinteger)).size / 10 ^ 10 := by
        have herror := abs_le.mp (abs_size_nearest_sub_le_mul (leastNormal_le_natCast hinteger))
        have hinteger' : (1 : ℚ) ≤ ⌊(nearest _ hproduct).size + 1 / 2⌋₊ := by
          exact_mod_cast hinteger
        have hsmall : leastNormal ≤ 2 ^ (-35 : ℤ) := zpow_le_zpow_right₀ one_le_two (by norm_num)
        refine hsmall.trans ?_
        rw [le_div_iff₀ (by norm_num)]
        norm_num
        linarith [herror.1]
      exact ⟨_, Holds.div ⟨_, hfinite', rfl, rfl⟩ holds_scale hquotient⟩
    · refine ⟨nearest _ (leastNormal_le_natCast hinteger), ?_⟩
      rw [Normal.toFloat_eq_infinity hfinite', infinity_div_scale]
  · refine ⟨nearest _ hproduct, ?_⟩
    rw [Normal.toFloat_eq_infinity hfinite, roundHalfAway_infinity, infinity_div_scale]

end Stylesheet.Number
