import Stylesheet.Proofs.Number.Places
import Stylesheet.Proofs.Number.WrittenForm
import Stylesheet.Proofs.Syntax.PrintedText

/-!
# Short decimals as they are displayed

A short decimal is displayed as it is written exactly if its number is finite and rounding to ten
places leaves it as it is (`Decimal.IsShort.display_eq_iff`). This is so below `2 ^ 18`
(`Decimal.IsShort.display_eq_of_lt`).
-/

namespace Stylesheet.Number

theorem display_zero : display 0 = "0" := by decide +kernel

theorem toPlaces_zero : toPlaces 0 = 0 := by decide +kernel

theorem isFinite_zero : (0 : Float).isFinite = true := by decide +kernel

theorem positional_infinity : positional infinity = "inf" := by decide +kernel

theorem display_infinity : display infinity = "Infinity" := by decide +kernel

section

variable {n : Normal} (h : n.IsFinite)

include h

theorem positional_toFloat : positional n.toFloat = (shortest n.toFloat).positional := by
  rw [positional, if_neg (Normal.not_toFloat_lt_zero h), Normal.isInf_toFloat h,
    Normal.toFloat_beq_zero h, Normal.abs_toFloat h]
  exact String.empty_append

theorem display_toFloat : display n.toFloat = positional (toPlaces n.toFloat) := by
  rw [display, Normal.isNaN_toFloat h, Normal.isInf_toFloat h]
  rfl

end

namespace Decimal

theorem positional_ne_cons (d : Decimal) {c : Char} {s : List Char} (hdigit : c.isDigit = false)
    (hpoint : c ≠ '.') : d.positional ≠ String.ofList (c :: s) := by
  obtain ⟨first, rest, htext, hfirst⟩ := d.isLiteral_literal.exists_head
  rw [positional_eq, htext, ne_eq, String.ofList_inj, List.cons.injEq]
  rintro ⟨rfl, -⟩
  simp [hdigit, hpoint] at hfirst

/-- A decimal of the same value is read as the same number. -/
theorem toFloat_eq_of_size_eq {d d' : Decimal} (hd : leastNormal ≤ d.size)
    (h : d'.size = d.size) : d'.toFloat = (nearest d.size hd).toFloat := by
  have hdigits : 0 < d'.digits := by
    refine Nat.pos_of_ne_zero fun hzero => ?_
    rw [← h, size, hzero, Nat.cast_zero, zero_mul] at hd
    exact absurd hd (not_le_of_gt leastNormal_pos)
  rw [toFloat_eq hdigits (h ▸ hd)]
  simp only [h]

namespace IsShort

variable {d : Decimal} (h : d.IsShort)

include h

/-- There is something in the ten places. -/
theorem exists_size_mul_eq : ∃ N : ℕ, d.size * 10 ^ 10 = N ∧ 1 ≤ N := by
  have hexponent := h.le_exponent
  have hten : (10 : ℚ) ^ d.exponent * 10 ^ 10 = 10 ^ (d.exponent + 10).toNat := by
    rw [← zpow_natCast, ← zpow_natCast, ← zpow_add₀ (by norm_num), Int.toNat_of_nonneg (by omega)]
    rfl
  refine ⟨d.digits * 10 ^ (d.exponent + 10).toNat, ?_, ?_⟩
  · push_cast
    rw [size, mul_assoc, hten]
  · exact Nat.mul_pos h.digits_pos (by positivity)

theorem three_quarters_le : 3 / 4 ≤ (nearest d.size h.leastNormal_le).size * 10 ^ 10 := by
  obtain ⟨N, hN, hpos⟩ := h.exists_size_mul_eq
  have hpos' : (1 : ℚ) ≤ N := by exact_mod_cast hpos
  have herror := abs_le.mp (abs_size_nearest_sub_le_mul h.leastNormal_le)
  linarith [herror.1]

/-- A finite number that is kept by the rounding has the text of its decimal, as has no other
number. -/
theorem positional_eq_iff (hfinite : d.toFloat.isFinite = true) (y : Normal) :
    Number.positional y.toFloat = d.positional ↔ y.toFloat = d.toFloat := by
  by_cases hy : y.IsFinite
  · rw [positional_toFloat hy]
    constructor
    · intro htext
      rw [← toFloat_shortest hy, h.toFloat_eq_nearest]
      exact toFloat_eq_of_size_eq h.leastNormal_le (size_eq_of_positional_eq htext)
    · intro heq
      rw [heq, h.shortest_toFloat hfinite]
  · rw [Normal.toFloat_eq_infinity hy, positional_infinity]
    have htext : "inf" ≠ d.positional :=
      (d.positional_ne_cons (s := ['n', 'f']) (by decide) (by decide)).symm
    have hne : infinity ≠ d.toFloat := by
      rintro heq
      rw [← heq] at hfinite
      exact absurd hfinite (by decide)
    exact iff_of_false htext hne

/-- Rounding to ten places is what makes the difference between a decimal and its display. -/
theorem display_eq_iff : display d.toFloat = d.positional ↔
    d.toFloat.isFinite = true ∧ toPlaces d.toFloat = d.toFloat := by
  by_cases hfinite : (nearest d.size h.leastNormal_le).IsFinite
  · have hfinite' : d.toFloat.isFinite = true := by
      rw [h.toFloat_eq_nearest, Normal.isFinite_toFloat hfinite]
    have hdisplay : display d.toFloat = Number.positional (toPlaces d.toFloat) := by
      rw [h.toFloat_eq_nearest, display_toFloat hfinite]
    obtain ⟨y, hy⟩ := exists_toPlaces_eq hfinite h.three_quarters_le
    rw [← h.toFloat_eq_nearest] at hy
    rw [hdisplay, hy, h.positional_eq_iff hfinite']
    exact (and_iff_right hfinite').symm
  · have htext : "Infinity" ≠ d.positional :=
      (d.positional_ne_cons (s := "nfinity".toList) (by decide) (by decide)).symm
    rw [h.toFloat_eq_nearest, Normal.toFloat_eq_infinity hfinite, display_infinity]
    exact iff_of_false htext fun hkept => absurd hkept.1 (by decide)

theorem display_eq_of_lt (hlt : d.size < 2 ^ 18) : display d.toFloat = d.positional := by
  obtain ⟨N, hN, -⟩ := h.exists_size_mul_eq
  have hfinite : (nearest d.size h.leastNormal_le).IsFinite :=
    Normal.isFinite_nearest _ (hlt.le.trans (pow_le_pow_right₀ one_le_two (by norm_num)))
  refine h.display_eq_iff.mpr ?_
  rw [h.toFloat_eq_nearest]
  exact ⟨Normal.isFinite_toFloat hfinite, toPlaces_nearest h.leastNormal_le hN hlt⟩

end IsShort

end Decimal

end Stylesheet.Number

namespace Stylesheet

namespace Lexeme.Number

variable {n : Number} (hdigits : n.IsDigits) (hsignificant : n.significant.length ≤ 15)
  (hplaces : n.places ≤ 10)

include hdigits hsignificant hplaces

theorem display_value_eq_iff : Number.display n.value = n.plain ↔
    n.value.isFinite = true ∧ Number.toPlaces n.value = n.value := by
  by_cases hne : n.significant = []
  · rw [value_of_significant_eq_nil hne, plain_of_significant_eq_nil hne]
    exact iff_of_true Number.display_zero ⟨Number.isFinite_zero, Number.toPlaces_zero⟩
  · have hshort := isShort_decimal hdigits hne hsignificant hplaces
    rw [value_eq_toFloat hshort, ← positional_decimal hdigits hne]
    exact hshort.display_eq_iff

theorem display_value_of_lt (hlt : n.size < 2 ^ 18) : Number.display n.value = n.plain := by
  by_cases hne : n.significant = []
  · rw [value_of_significant_eq_nil hne, plain_of_significant_eq_nil hne]
    exact Number.display_zero
  · have hshort := isShort_decimal hdigits hne hsignificant hplaces
    rw [value_eq_toFloat hshort, ← positional_decimal hdigits hne]
    exact hshort.display_eq_of_lt (n.size_decimal ▸ hlt)

end Lexeme.Number

namespace Cursor

theorem value_of_number? {c : Cursor} {parsed : Parsed Expr c.size}
    (h : c.number? = some parsed) :
    parsed.value = .number (c.rangeTo parsed.next) (Lexeme.number c.rest).value
      (Lexeme.number c.rest).unit? := by
  rw [number?] at h
  simp only at h
  split at h
  · rw [← Option.some.inj h]
    rfl
  · contradiction

/-- A number of at most 15 significant digits, of which at most ten stand behind the point, is
displayed as it is written, without superfluous zeros, exactly if it is not too large for binary64
and if rounding to ten places keeps it. This is so below `2 ^ 18`. -/
theorem number_displayed_as_written_iff {c : Cursor} {parsed : Parsed Expr c.size}
    {n : Lexeme.Number} (hread : c.number? = some parsed) (hnumber : Lexeme.number c.rest = n)
    (hsignificant : n.significant.length ≤ 15) (hplaces : n.places ≤ 10) :
    n.text <+: c.rest ∧ parsed.value = .number (c.rangeTo parsed.next) n.value n.unit? ∧
      (Number.display n.value = n.plain ↔
        n.value.isFinite = true ∧ Number.toPlaces n.value = n.value) ∧
      (n.size < 2 ^ 18 → Number.display n.value = n.plain) := by
  subst hnumber
  have hdigits := Lexeme.isDigits_number c.rest
  have htext : (Lexeme.number c.rest).text <+: c.rest := by
    rw [← Lexeme.take_length_number]
    exact List.take_prefix _ _
  exact ⟨htext, value_of_number? hread,
    Lexeme.Number.display_value_eq_iff hdigits hsignificant hplaces,
    Lexeme.Number.display_value_of_lt hdigits hsignificant hplaces⟩

/-- Zeros at both ends and a unit. -/
theorem number_displayed_as_written_iff_length :
    ∃ parsed, (start "0600000.120em".toList).number? = some parsed ∧
      ∃ n, Lexeme.number "0600000.120em".toList = n ∧ n.significant.length ≤ 15 ∧ n.places ≤ 10 ∧
        parsed.value = .number ⟨0, 13⟩ n.value (some "em") ∧
        Number.display n.value = "600000.12" := by
  obtain ⟨-, hvalue, hiff, -⟩ := number_displayed_as_written_iff
    (c := start "0600000.120em".toList) rfl rfl (by decide) (by decide)
  refine ⟨_, rfl, _, rfl, by decide, by decide, hvalue, (hiff.mpr ?_).trans (by decide)⟩
  decide +kernel

/-- The integer `10 ^ 15` is displayed with a fraction, since its product with `10 ^ 10` is rounded
to a multiple of a power of two. -/
theorem integer_not_displayed_as_written :
    ∃ parsed, (start "1000000000000000".toList).number? = some parsed ∧
      ∃ n, Lexeme.number "1000000000000000".toList = n ∧ n.significant.length ≤ 15 ∧
        n.places ≤ 10 ∧ n.plain = "1000000000000000" ∧
        (∃ range, parsed.value = .number range n.value none) ∧
        Number.display n.value = "1000000000000000.1" := by
  refine ⟨_, rfl, _, rfl, by decide, by decide, by decide, ⟨_, rfl⟩, ?_⟩
  decide +kernel

example : Number.display (Lexeme.number "262144.28".toList).value = "262144.2800000001" := by
  decide +kernel

end Cursor

end Stylesheet
