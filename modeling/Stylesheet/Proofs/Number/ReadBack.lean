import Stylesheet.Proofs.Number.Operations

/-!
# The fewest digits that read back

A decimal of at most 15 digits and ten places is told apart from all decimals with the same
exponent, since rounding errs by less than half a unit in the last of its places
(`digits_eq_of_nearest_eq`). So the search for the fewest digits ends at it
(`Decimal.IsShort.shortest_toFloat`). Whatever the search ends at is read back
(`toFloat_shortest`).
-/

namespace Stylesheet.Number

open Float.Model Float.Model.UnpackedFloat

/-! ## Exact sizes -/

/-- The exact value of a decimal. -/
def Decimal.size (d : Decimal) : ℚ := d.digits * 10 ^ d.exponent

theorem Decimal.toFloat_eq {d : Decimal} (hd : 0 < d.digits) (hv : leastNormal ≤ d.size) :
    d.toFloat = (nearest d.size hv).toFloat := by
  refine ofScientific_eq hd ?_ hv
  rw [size]
  congr 2
  split_ifs with h <;> simp only [decide_eq_true_eq] at h <;> omega

theorem ofScientific_zero (s : Bool) (e : ℕ) : Float.ofScientific 0 s e = 0 := by
  rw [Float.ofScientific]
  split
  · rename_i hfast
    have htable : ∀ (s : Bool) (e : Fin 23), Float.ofScientific 0 s e = 0 := by decide +kernel
    have hfast' := htable s ⟨e, by omega⟩
    rwa [Float.ofScientific, dif_pos hfast] at hfast'
  · have hzero : (0 : Float) = .ofModel (.pack (.zero .positive)) := by decide +kernel
    rw [hzero]
    rfl

/-- The size of a number is found in the number divided by a power of ten. -/
theorem divTenPow_fst {n : Normal} (k : ℤ) :
    (Magnitude.divTenPow ⟨n.mantissa, n.exponent⟩ k).1 = ⌊n.size / 10 ^ k⌋₊ := by
  have hsplit {b : ℚ} (hb : b ≠ 0) (e : ℤ) : b ^ e.toNat / b ^ (-e).toNat = b ^ e := by
    rw [← zpow_natCast, ← zpow_natCast, ← zpow_sub₀ hb]
    congr 1
    omega
  have hvalue : n.size / 10 ^ k =
      ((n.mantissa * Nat.pow 2 n.exponent.toNat * Nat.pow 10 (-k).toNat : ℕ) : ℚ) /
        (Nat.pow 2 (-n.exponent).toNat * Nat.pow 10 k.toNat : ℕ) := by
    have htwo := hsplit two_ne_zero n.exponent
    have hten := hsplit (b := 10) (by norm_num) (-k)
    rw [neg_neg, zpow_neg] at hten
    rw [Normal.size, div_eq_mul_inv, ← htwo, ← hten]
    simp only [Nat.pow_eq]
    push_cast
    field_simp
  rw [hvalue, Nat.floor_div_eq_div]
  rfl

theorem round_eq (n : Normal) :
    Magnitude.round ⟨n.mantissa, n.exponent⟩ = ⌊n.size + 1 / 2⌋₊ := by
  obtain ⟨m, e, hm, hm', he⟩ := n
  rw [Normal.size]
  cases e with
  | ofNat e =>
    have hvalue : (m : ℚ) * 2 ^ (Int.ofNat e) = (m * 2 ^ e : ℕ) := by
      rw [Int.ofNat_eq_natCast, zpow_natCast]
      push_cast
      rfl
    have hfloor : ⌊((m * 2 ^ e : ℕ) : ℚ) + 1 / 2⌋₊ = m * 2 ^ e := by
      rw [Nat.floor_eq_iff (by positivity)]
      constructor <;> linarith
    simp only
    rw [hvalue, hfloor]
    rfl
  | negSucc k =>
    have hvalue : (m : ℚ) * 2 ^ (Int.negSucc k) + 1 / 2 = (m + 2 ^ k : ℕ) / (2 ^ (k + 1) : ℕ) := by
      rw [zpow_negSucc]
      push_cast
      field_simp
      ring
    simp only
    rw [hvalue, Nat.floor_div_eq_div]
    rfl

/-! ## Decimals that are told apart -/

/-- At most 15 digits, of which the last is not zero, and at most ten places behind the point. -/
structure Decimal.IsShort (d : Decimal) : Prop where
  digits_lt : d.digits < 10 ^ 15
  last_ne_zero : d.digits % 10 ≠ 0
  le_exponent : -10 ≤ d.exponent

theorem leastNormal_le_places : leastNormal ≤ 10 ^ (-10 : ℤ) := by
  have hsmall : leastNormal ≤ 2 ^ (-34 : ℤ) := zpow_le_zpow_right₀ one_le_two (by norm_num)
  exact hsmall.trans (by norm_num)

theorem Decimal.leastNormal_le_size {d : Decimal} (hd : 0 < d.digits) (he : -10 ≤ d.exponent) :
    leastNormal ≤ d.size := by
  have hdigits : (1 : ℚ) ≤ d.digits := by exact_mod_cast hd
  refine leastNormal_le_places.trans ?_
  calc (10 : ℚ) ^ (-10 : ℤ) ≤ 10 ^ d.exponent := zpow_le_zpow_right₀ (by norm_num) he
    _ ≤ d.size := le_mul_of_one_le_left (by positivity) hdigits

/-- For at most 15 digits, rounding errs by less than half a unit of their last place. -/
theorem abs_size_nearest_sub_lt {D : ℕ} {q : ℤ} (hD : D < 10 ^ 15)
    (hv : leastNormal ≤ D * 10 ^ q) :
    |(nearest (D * 10 ^ q) hv).size - D * 10 ^ q| < 10 ^ q / 2 := by
  have hunit : (0 : ℚ) < 10 ^ q := by positivity
  have hD' : (D : ℚ) < 10 ^ 15 := by exact_mod_cast hD
  have hscaled : (D : ℚ) * 10 ^ q < 10 ^ 15 * 10 ^ q := mul_lt_mul_of_pos_right hD' hunit
  linarith [abs_size_nearest_sub_le_mul hv]

/-- Two decimals with one exponent are read as one number only if they are equal, if one of them has
at most 15 digits. -/
theorem digits_eq_of_nearest_eq {A D : ℕ} {q : ℤ} (hD : D < 10 ^ 15)
    (hA' : leastNormal ≤ A * 10 ^ q) (hD' : leastNormal ≤ D * 10 ^ q)
    (h : nearest (A * 10 ^ q) hA' = nearest (D * 10 ^ q) hD') : A = D := by
  have hunit : (0 : ℚ) < 10 ^ q := by positivity
  have hD'' : (D : ℚ) < 10 ^ 15 := by exact_mod_cast hD
  have hscaled : (D : ℚ) * 10 ^ q < 10 ^ 15 * 10 ^ q := mul_lt_mul_of_pos_right hD'' hunit
  have herror := abs_le.mp (abs_size_nearest_sub_le_mul hA')
  have herror' := abs_lt.mp (abs_size_nearest_sub_lt hD hD')
  rw [h] at herror
  have hbelow : (A : ℚ) < D + 1 := by
    refine lt_of_mul_lt_mul_right (?_ : (A : ℚ) * 10 ^ q < (D + 1) * 10 ^ q) hunit.le
    linarith [herror.1, herror'.2]
  have habove : (D : ℚ) < A + 1 := by
    refine lt_of_mul_lt_mul_right (?_ : (D : ℚ) * 10 ^ q < (A + 1) * 10 ^ q) hunit.le
    linarith [herror.2, herror'.1]
  norm_cast at hbelow habove
  omega

namespace Decimal.IsShort

variable {d : Decimal} (h : d.IsShort)

include h

theorem digits_pos : 0 < d.digits :=
  Nat.pos_of_ne_zero fun hzero => h.last_ne_zero (by rw [hzero])

theorem leastNormal_le : leastNormal ≤ d.size := leastNormal_le_size h.digits_pos h.le_exponent

theorem toFloat_eq_nearest : d.toFloat = (nearest d.size h.leastNormal_le).toFloat :=
  Decimal.toFloat_eq h.digits_pos h.leastNormal_le

variable (hfinite : d.toFloat.isFinite = true)

include hfinite

theorem isFinite_nearest : (nearest d.size h.leastNormal_le).IsFinite :=
  Normal.isFinite_of_toFloat (h.toFloat_eq_nearest ▸ hfinite)

/-- On a coarser grid only the same decimal is read as the same number. -/
theorem mul_tenPow_eq_of_reads {A j : ℕ}
    (hreads : (⟨A, d.exponent + j⟩ : Decimal).toFloat = d.toFloat) : A * 10 ^ j = d.digits := by
  have hnumber := h.toFloat_eq_nearest
  have hfinite' := h.isFinite_nearest hfinite
  rcases A.eq_zero_or_pos with rfl | hA
  · have hzero : (⟨0, d.exponent + j⟩ : Decimal).toFloat = 0 := ofScientific_zero _ _
    rw [hzero, hnumber] at hreads
    exact absurd hreads.symm (Normal.toFloat_ne_zero hfinite')
  · have hexponent := h.le_exponent
    have hA' := leastNormal_le_size (d := ⟨A, d.exponent + j⟩) hA (by simp only; omega)
    have hsize : (⟨A, d.exponent + j⟩ : Decimal).size = (A * 10 ^ j : ℕ) * 10 ^ d.exponent := by
      rw [size, zpow_add₀ (by norm_num), zpow_natCast]
      push_cast
      ring
    rw [Decimal.toFloat_eq hA hA', hnumber] at hreads
    have hsame := Normal.toFloat_injective hfinite' hreads.symm
    simp only [hsize] at hA' hsame
    exact digits_eq_of_nearest_eq h.digits_lt hA' h.leastNormal_le hsame.symm

theorem not_reads_coarser {A : ℕ} {k : ℤ} (hk : d.exponent < k) :
    (⟨A, k⟩ : Decimal).toFloat ≠ d.toFloat := by
  intro hreads
  obtain ⟨j, rfl⟩ := Int.le.dest hk.le
  have hj : j ≠ 0 := by rintro rfl; simp at hk
  have hdigits := h.mul_tenPow_eq_of_reads hfinite hreads
  refine h.last_ne_zero ?_
  rw [← hdigits]
  exact Nat.mod_eq_zero_of_dvd ((dvd_pow_self 10 hj).mul_left A)

theorem reads_iff {A : ℕ} :
    (⟨A, d.exponent⟩ : Decimal).toFloat = d.toFloat ↔ A = d.digits := by
  constructor
  · intro hreads
    simpa using h.mul_tenPow_eq_of_reads (j := 0) hfinite (by simpa using hreads)
  · rintro rfl
    rfl

omit hfinite in
/-- The number that a decimal is read as is not farther from it than the next decimals are. -/
theorem floor_size_mem : ⌊(nearest d.size h.leastNormal_le).size / 10 ^ d.exponent⌋₊ = d.digits ∨
    ⌊(nearest d.size h.leastNormal_le).size / 10 ^ d.exponent⌋₊ + 1 = d.digits := by
  have hunit : (0 : ℚ) < 10 ^ d.exponent := by positivity
  have herror : -(10 ^ d.exponent / 2) < (nearest d.size h.leastNormal_le).size - d.size ∧
      (nearest d.size h.leastNormal_le).size - d.size < 10 ^ d.exponent / 2 :=
    abs_lt.mp (abs_size_nearest_sub_lt h.digits_lt h.leastNormal_le)
  have hscaled : d.size = d.digits * 10 ^ d.exponent := rfl
  have hlt : (nearest d.size h.leastNormal_le).size / 10 ^ d.exponent < d.digits + 1 := by
    rw [div_lt_iff₀ hunit]
    linarith [herror.2]
  have hgt : (d.digits : ℚ) - 1 < (nearest d.size h.leastNormal_le).size / 10 ^ d.exponent := by
    rw [lt_div_iff₀ hunit]
    linarith [herror.1]
  generalize (nearest d.size h.leastNormal_le).size / 10 ^ d.exponent = quotient at *
  have hpos : 0 ≤ quotient := by
    have hone : (1 : ℚ) ≤ d.digits := by exact_mod_cast h.digits_pos
    linarith
  have hle := Nat.floor_le hpos
  have hlt' := Nat.lt_floor_add_one quotient
  have hbelow : (⌊quotient⌋₊ : ℚ) < d.digits + 1 := by linarith
  have habove : (d.digits : ℚ) < ⌊quotient⌋₊ + 1 + 1 := by linarith
  norm_cast at hbelow habove
  omega

/-! ## The search for the fewest digits -/

theorem readBack?_coarser {k : ℤ} (hk : d.exponent < k) : readBack? d.toFloat k = none := by
  rw [readBack?]
  simp only [h.not_reads_coarser hfinite hk, decide_false]

theorem readBack?_own : readBack? d.toFloat d.exponent = some d := by
  have hbelow : ((Magnitude.ofFloat d.toFloat).divTenPow d.exponent).1 =
      ⌊(nearest d.size h.leastNormal_le).size / 10 ^ d.exponent⌋₊ := by
    rw [h.toFloat_eq_nearest, Normal.ofFloat_toFloat (h.isFinite_nearest hfinite), divTenPow_fst]
  have hmem := h.floor_size_mem
  rw [← hbelow] at hmem
  rw [readBack?]
  simp only [h.reads_iff hfinite]
  rcases hmem with hlower | hupper
  · have hne : d.digits + 1 ≠ d.digits := Nat.succ_ne_self _
    simp only [hlower, decide_true, hne, decide_false]
  · have hne : ((Magnitude.ofFloat d.toFloat).divTenPow d.exponent).1 ≠ d.digits := by omega
    simp only [hupper, decide_true, hne, decide_false]

/-- From a grid that is coarse enough, the search ends at the grid of the decimal. -/
theorem coarsest_eq {j n : ℕ} (hn : j < n) :
    coarsest d.toFloat (d.exponent + j) n = d := by
  induction j generalizing n with
  | zero =>
    obtain ⟨n, rfl⟩ := Nat.exists_eq_add_of_lt hn
    rw [coarsest]
    simp [h.readBack?_own hfinite]
  | succ j ih =>
    cases n with
    | zero => omega
    | succ n =>
      have hstep : d.exponent + (j + 1 : ℕ) - 1 = d.exponent + j := by
        push_cast
        ring
      rw [coarsest, h.readBack?_coarser hfinite (by omega), Option.getD_none, hstep]
      exact ih (by omega)

omit hfinite in
/-- The integer part of the number has as many digits as the decimal has zeros. -/
theorem exponent_le_length :
    d.exponent ≤ (Nat.toDigits 10 ⌊(nearest d.size h.leastNormal_le).size⌋₊).length := by
  by_contra! hlong
  obtain ⟨e, he⟩ := Int.eq_ofNat_of_zero_le (show 0 ≤ d.exponent - 1 by omega)
  have hpositive : 0 < e := by
    have := Nat.length_toDigits_pos (b := 10)
      (n := ⌊(nearest d.size h.leastNormal_le).size⌋₊)
    omega
  have hlarge : (10 : ℚ) ^ e ≤ (nearest d.size h.leastNormal_le).size := by
    have hdigits : (1 : ℚ) ≤ d.digits := by exact_mod_cast h.digits_pos
    have hten : (10 : ℚ) ^ d.exponent = 10 * 10 ^ e := by
      rw [show d.exponent = (e + 1 : ℕ) by omega, zpow_natCast, pow_succ']
    have hsize : 10 * (10 : ℚ) ^ e ≤ d.size := by
      rw [size, ← hten]
      exact le_mul_of_one_le_left (by positivity) hdigits
    have hpow : (0 : ℚ) < 10 ^ e := by positivity
    linarith [(abs_le.mp (abs_size_nearest_sub_le_mul h.leastNormal_le)).1]
  have hfloor : 10 ^ e ≤ ⌊(nearest d.size h.leastNormal_le).size⌋₊ :=
    Nat.le_floor (by exact_mod_cast hlarge)
  have hshort := (Nat.length_toDigits_le_iff (b := 10) (by norm_num) hpositive).mp
    (show (Nat.toDigits 10 ⌊(nearest d.size h.leastNormal_le).size⌋₊).length ≤ e by omega)
  omega

theorem shortest_toFloat : shortest d.toFloat = d := by
  have hlength := h.exponent_le_length
  have hexponent := h.le_exponent
  have hwhole : ((Magnitude.ofFloat d.toFloat).divTenPow 0).1 =
      ⌊(nearest d.size h.leastNormal_le).size⌋₊ := by
    rw [h.toFloat_eq_nearest, Normal.ofFloat_toFloat (h.isFinite_nearest hfinite), divTenPow_fst,
      zpow_zero, div_one]
  obtain ⟨j, hj⟩ := Int.le.dest hlength
  rw [shortest]
  simp only [hwhole]
  rw [← hj]
  exact h.coarsest_eq hfinite (by rw [finest]; omega)

end Decimal.IsShort

/-! ## The fewest digits are read back -/

theorem toFloat_of_readBack? {x : Float} {k : ℤ} {d : Decimal} (h : readBack? x k = some d) :
    d.toFloat = x := by
  rw [readBack?] at h
  simp only at h
  split at h <;> rename_i hlower hupper
  · rw [← Option.some.inj h]
    split_ifs
    · exact of_decide_eq_true hlower
    · exact of_decide_eq_true hupper
  · rw [← Option.some.inj h]
    exact of_decide_eq_true hlower
  · rw [← Option.some.inj h]
    exact of_decide_eq_true hupper
  · contradiction

/-- On a grid that is fine enough the number is one of the multiples. -/
theorem toFloat_floor (n : Normal) {k : ℤ} (hk : k ≤ -1074) :
    (⟨⌊n.size / 10 ^ k⌋₊, k⟩ : Decimal).toFloat = n.toFloat := by
  have hmultiple : n.size / 10 ^ k =
      (n.mantissa * 5 ^ (-k).toNat * 2 ^ (n.exponent - k).toNat : ℕ) := by
    have hexponent := n.le_exponent
    have hfive : (5 : ℚ) ^ (-k).toNat = (5 ^ k)⁻¹ := by
      rw [← zpow_natCast, Int.toNat_of_nonneg (by omega), zpow_neg]
    have htwo : (2 : ℚ) ^ (n.exponent - k).toNat = 2 ^ n.exponent / 2 ^ k := by
      rw [← zpow_natCast, Int.toNat_of_nonneg (by omega), zpow_sub₀ two_ne_zero]
    push_cast
    rw [Normal.size, tenZpow_eq, hfive, htwo]
    field_simp
  have hunit : (10 : ℚ) ^ k ≠ 0 := by positivity
  have hsize : Decimal.size ⟨⌊n.size / 10 ^ k⌋₊, k⟩ = n.size := by
    rw [Decimal.size, hmultiple, Nat.floor_natCast, ← hmultiple, div_mul_cancel₀ _ hunit]
  have hpos : 0 < ⌊n.size / 10 ^ k⌋₊ := by
    rw [hmultiple, Nat.floor_natCast]
    have := n.mantissa_pos
    positivity
  have hv : leastNormal ≤ Decimal.size ⟨⌊n.size / 10 ^ k⌋₊, k⟩ := by
    rw [hsize]
    exact n.leastNormal_le_size
  rw [Decimal.toFloat_eq hpos hv]
  simp only [hsize, nearest_size]

section

variable {n : Normal} (h : n.IsFinite)

include h

theorem toFloat_coarsest {k : ℤ} {m : ℕ} (hk : k - m ≤ -1074) :
    (coarsest n.toFloat k m).toFloat = n.toFloat := by
  induction m generalizing k with
  | zero =>
    rw [coarsest, Normal.ofFloat_toFloat h, divTenPow_fst]
    exact toFloat_floor n (by omega)
  | succ m ih =>
    rw [coarsest]
    cases hread : readBack? n.toFloat k with
    | none => exact ih (by omega)
    | some d => exact toFloat_of_readBack? hread

/-- The fewest digits of a number are read back as it. -/
theorem toFloat_shortest : (shortest n.toFloat).toFloat = n.toFloat :=
  toFloat_coarsest h (by rw [finest]; omega)

end

end Stylesheet.Number
