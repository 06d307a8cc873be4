import Stylesheet.Proofs.Number.Binary64

/-!
# Arithmetic on binary64 numbers

A product, a quotient and a decimal that is read are the numbers nearest to their exact values
(`Holds.mul`, `Holds.div`, `ofScientific_eq`), as long as these are not below the least normal
number.
-/

namespace Stylesheet.Number

open Float.Model Float.Model.UnpackedFloat

/-! ## Multiplication and division -/

theorem le_lastPlace_of_zpow_le {v : ℚ} {e : ℤ} (h : 2 ^ (e + 52) ≤ v) : e ≤ lastPlace v := by
  have hpos : 0 < v := lt_of_lt_of_le (by positivity) h
  have hlog := (Int.zpow_le_iff_le_log one_lt_two hpos).mp (by exact_mod_cast h)
  rw [lastPlace]
  omega

theorem mul_finite {m m' : ℕ} {e e' : ℤ} {v : ℚ} (hm : 0 < m) (hm' : 0 < m')
    (hvalue : v = m * 2 ^ e * (m' * 2 ^ e')) (hv : leastNormal ≤ v)
    (hplace : e + e' ≤ lastPlace v) :
    UnpackedFloat.mul Format.binary64 (.finite .positive m e hm) (.finite .positive m' e' hm') =
      (nearest v hv).unpacked := by
  have hexact : Describes .exact (v / 2 ^ (e + e') - (m * m' : ℕ)) := by
    rw [Describes, hvalue, zpow_add₀ two_ne_zero]
    push_cast
    field_simp
    ring
  exact roundWithAccuracy_eq hv hexact hplace

theorem describes_accuracyOfFraction {r d : ℕ} (h : r < d) :
    Describes (accuracyOfFraction r d) (r / d : ℚ) := by
  have hd : (0 : ℚ) < d := by exact_mod_cast (Nat.zero_le r).trans_lt h
  rw [accuracyOfFraction]
  split_ifs with hr
  · simp [Describes, hr]
  · have hr' : (0 : ℚ) < r := by exact_mod_cast Nat.pos_of_ne_zero hr
    have hlt : (r : ℚ) / d < 1 := by
      rw [div_lt_one hd]
      exact_mod_cast h
    have hdouble : 2 * ((r : ℚ) / d) = (2 * r : ℕ) / d := by
      push_cast
      ring
    cases hcompare : compare (2 * r) d with
    | lt =>
      rw [Nat.compare_eq_lt] at hcompare
      rw [Describes, hdouble, div_lt_one hd]
      exact ⟨by positivity, by exact_mod_cast hcompare⟩
    | eq =>
      rw [Nat.compare_eq_eq] at hcompare
      rw [Describes, hdouble, hcompare, div_self hd.ne']
    | gt =>
      rw [Nat.compare_eq_gt] at hcompare
      rw [Describes, hdouble, one_lt_div hd]
      exact ⟨by exact_mod_cast hcompare, hlt⟩

theorem zpow_log2_le {m : ℕ} (hm : 0 < m) (e : ℤ) : (2 : ℚ) ^ (m.log2 + e) ≤ m * 2 ^ e := by
  have hlow : (2 : ℚ) ^ m.log2 ≤ m := by exact_mod_cast Nat.log2_self_le hm.ne'
  rw [zpow_add₀ two_ne_zero, zpow_natCast]
  exact mul_le_mul_of_nonneg_right hlow (by positivity)

theorem lt_zpow_log2 (m : ℕ) (e : ℤ) : (m : ℚ) * 2 ^ e < 2 ^ (m.log2 + 1 + e) := by
  have hhigh : (m : ℚ) < 2 ^ (m.log2 + 1) := by exact_mod_cast Nat.lt_log2_self
  rw [zpow_add₀ two_ne_zero]
  exact mul_lt_mul_of_pos_right (by exact_mod_cast hhigh) (by positivity)

/-- A quotient of natural numbers with its remainder is rounded to the nearest number. -/
theorem roundWithAccuracy_quotient {m d : ℕ} {e : ℤ} {v : ℚ} (hd : 0 < d)
    (hvalue : v = m * 2 ^ e / d) (hv : leastNormal ≤ v) (hplace : e ≤ lastPlace v) :
    roundWithAccuracy Format.binary64 .positive (m / d) e (accuracyOfFraction (m % d) d) =
      (nearest v hv).unpacked := by
  refine roundWithAccuracy_eq hv ?_ hplace
  have hd' : (d : ℚ) ≠ 0 := by exact_mod_cast hd.ne'
  have hdivmod : (m : ℚ) = d * (m / d : ℕ) + (m % d : ℕ) := by
    exact_mod_cast (Nat.div_add_mod m d).symm
  have hrest : v / 2 ^ e - (m / d : ℕ) = ((m % d : ℕ) : ℚ) / d := by
    rw [hvalue, eq_div_iff hd', sub_mul]
    field_simp
    linarith
  rw [hrest]
  exact describes_accuracyOfFraction (Nat.mod_lt _ hd)

/-- Where a quotient is computed, there are at least as many bits as are kept. -/
theorem targetExponent_le_lastPlace {m m' : ℕ} {e e' : ℤ} {v : ℚ} (hm : 0 < m) (hm' : 0 < m')
    (hvalue : v = m * 2 ^ e / (m' * 2 ^ e')) (hv : leastNormal ≤ v) :
    Format.binary64.targetExponent (totalExponent m e - totalExponent m' e') ≤ lastPlace v := by
  have hbits : (Format.binary64.mantissaBits : ℤ) = 53 := rfl
  have hm'' : (0 : ℚ) < m' := by exact_mod_cast hm'
  have hsum : (m.log2 : ℤ) + 1 + e - (m'.log2 + 1 + e') - 53 + 52 =
      m.log2 + e - (m'.log2 + 1 + e') := by
    ring
  rw [Format.targetExponent, minExponent_binary64, hbits, totalExponent, totalExponent]
  refine max_le (le_lastPlace_of_zpow_le ?_) (le_lastPlace hv)
  rw [hsum, zpow_sub₀ two_ne_zero, hvalue]
  exact div_le_div₀ (by positivity) (zpow_log2_le hm e) (by positivity) (lt_zpow_log2 m' e').le

theorem div_finite {m m' : ℕ} {e e' : ℤ} {v : ℚ} (hm : 0 < m) (hm' : 0 < m')
    (hvalue : v = m * 2 ^ e / (m' * 2 ^ e')) (hv : leastNormal ≤ v) :
    UnpackedFloat.div Format.binary64 (.finite .positive m e hm) (.finite .positive m' e' hm') =
      (nearest v hv).unpacked := by
  have hle : min (e - e')
      (Format.binary64.targetExponent (totalExponent m e - totalExponent m' e')) ≤ e - e' :=
    min_le_left _ _
  have hplace : min (e - e')
      (Format.binary64.targetExponent (totalExponent m e - totalExponent m' e')) ≤ lastPlace v :=
    (min_le_right _ _).trans (targetExponent_le_lastPlace hm hm' hvalue hv)
  rw [UnpackedFloat.div, divCore]
  generalize min (e - e')
    (Format.binary64.targetExponent (totalExponent m e - totalExponent m' e')) = target at *
  refine roundWithAccuracy_quotient hm' ?_ hv hplace
  have hshift : (2 : ℚ) ^ (e - e' - target).toNat * 2 ^ target * 2 ^ e' = 2 ^ e := by
    rw [← zpow_natCast, ← zpow_add₀ two_ne_zero, ← zpow_add₀ two_ne_zero]
    congr 1
    omega
  rw [hvalue, ← hshift, Nat.shiftLeft_eq]
  push_cast
  field_simp

namespace Normal

theorem size_lt (n : Normal) : n.size < 2 ^ (n.exponent + 53) := by
  have hmantissa : (n.mantissa : ℚ) < 2 ^ 53 := by exact_mod_cast n.mantissa_lt
  rw [zpow_add₀ two_ne_zero, mul_comm, size]
  exact mul_lt_mul_of_pos_right hmantissa (by positivity)

theorem isFinite_iff (n : Normal) : n.IsFinite ↔ n.size < 2 ^ 1024 := by
  constructor
  · intro h
    have hle : (2 : ℚ) ^ (n.exponent + 53) ≤ 2 ^ (1024 : ℤ) :=
      zpow_le_zpow_right₀ one_le_two (by rw [IsFinite] at h; omega)
    exact n.size_lt.trans_le (by exact_mod_cast hle)
  · intro h
    have hlt : (2 : ℚ) ^ (n.exponent + 52) < 2 ^ (1024 : ℤ) :=
      lt_of_le_of_lt n.zpow_le_size (by exact_mod_cast h)
    have hexponent := (zpow_lt_zpow_iff_right₀ one_lt_two).mp hlt
    rw [IsFinite]
    omega

theorem toFloat_mul {n n' : Normal} (h : n.IsFinite) (h' : n'.IsFinite)
    (hv : leastNormal ≤ n.size * n'.size) :
    n.toFloat * n'.toFloat = (nearest (n.size * n'.size) hv).toFloat := by
  have hmul : n.toFloat * n'.toFloat = .ofModel (.pack
      (UnpackedFloat.mul Format.binary64 n.toFloat.toModel.unpack n'.toFloat.toModel.unpack)) := rfl
  have hplace : n.exponent + n'.exponent ≤ lastPlace (n.size * n'.size) := by
    apply le_lastPlace_of_zpow_le
    have hle : (2 : ℚ) ^ (n.exponent + n'.exponent + 52) ≤
        2 ^ (n.exponent + 52 + (n'.exponent + 52)) := zpow_le_zpow_right₀ one_le_two (by omega)
    rw [zpow_add₀ two_ne_zero (n.exponent + 52)] at hle
    exact hle.trans (mul_le_mul n.zpow_le_size n'.zpow_le_size (by positivity)
      (leastNormal_pos.le.trans n.leastNormal_le_size))
  rw [hmul, unpack_toFloat h, unpack_toFloat h', toFloat]
  congr 2
  exact mul_finite n.mantissa_pos n'.mantissa_pos rfl hv hplace

theorem toFloat_div {n n' : Normal} (h : n.IsFinite) (h' : n'.IsFinite)
    (hv : leastNormal ≤ n.size / n'.size) :
    n.toFloat / n'.toFloat = (nearest (n.size / n'.size) hv).toFloat := by
  have hdiv : n.toFloat / n'.toFloat = .ofModel (.pack
      (UnpackedFloat.div Format.binary64 n.toFloat.toModel.unpack n'.toFloat.toModel.unpack)) := rfl
  rw [hdiv, unpack_toFloat h, unpack_toFloat h', toFloat]
  congr 2
  exact div_finite n.mantissa_pos n'.mantissa_pos rfl hv

end Normal

/-! ## Conversion from integers and decimals -/

theorem leastNormal_le_one : leastNormal ≤ 1 := zpow_le_one_of_nonpos₀ one_le_two (by norm_num)

theorem leastNormal_le_natCast {n : ℕ} (hn : 0 < n) : leastNormal ≤ (n : ℚ) :=
  leastNormal_le_one.trans (by exact_mod_cast hn)

theorem ofNat_finite {n : ℕ} (hn : 0 < n) :
    UnpackedFloat.ofNat Format.binary64 n = (nearest n (leastNormal_le_natCast hn)).unpacked := by
  have hv := leastNormal_le_natCast hn
  have htotal : totalExponent n 0 = Int.log 2 (n : ℚ) + 1 := by
    rw [totalExponent, ← log2_add_eq (e := 0) hn.ne' (by simp)]
    ring
  have hround : UnpackedFloat.ofNat Format.binary64 n =
      UnpackedFloat.round Format.binary64 .positive n 0 := by
    have hcompare : compare (n : ℤ) 0 = .gt := by
      rw [compare_gt_iff_gt]
      exact_mod_cast hn
    rw [UnpackedFloat.ofNat, UnpackedFloat.ofInt, UnpackedFloat.normalize, hcompare,
      Int.toNat_natCast]
  rw [hround, UnpackedFloat.round, targetExponent_eq hv htotal, decreaseExponent]
  refine roundWithAccuracy_eq hv ?_ (by omega)
  rw [Describes, Nat.shiftLeft_eq, zero_sub, zpow_neg, zpow_natCast]
  push_cast
  field_simp
  ring

/-- A value that 53 bits can hold is not changed. -/
theorem size_nearest_of_lt {m : ℕ} {e : ℤ} {v : ℚ} (hvalue : v = m * 2 ^ e) (hm : m < 2 ^ 53)
    (hv : leastNormal ≤ v) : (nearest v hv).size = v := by
  have hpos : 0 < v := leastNormal_pos.trans_le hv
  have hm' : (m : ℚ) < 2 ^ 53 := by exact_mod_cast hm
  have hlt : v < 2 ^ (e + 53) := by
    rw [hvalue, zpow_add₀ two_ne_zero, mul_comm]
    exact mul_lt_mul_of_pos_left hm' (by positivity)
  have hlog := (Int.lt_zpow_iff_log_lt one_lt_two hpos).mp (by exact_mod_cast hlt)
  have hplace : lastPlace v ≤ e := by
    rw [lastPlace]
    omega
  obtain ⟨n, hn⟩ := Int.le.dest hplace
  apply size_nearest_of_multiple (n := m * 2 ^ n)
  push_cast
  rw [mul_assoc, ← zpow_natCast, ← zpow_add₀ two_ne_zero, add_comm, hn, hvalue]

namespace Normal

theorem isFinite_nearest {v : ℚ} (hv : leastNormal ≤ v) (h : v ≤ 2 ^ 1023) :
    (nearest v hv).IsFinite := by
  have herror := abs_le.mp (abs_size_nearest_sub_le_mul hv)
  have hsmall : v / 2 ^ 53 < v := div_lt_self (leastNormal_pos.trans_le hv) (by norm_num)
  rw [isFinite_iff]
  calc (nearest v hv).size < 2 * v := by linarith [herror.2]
    _ ≤ 2 * 2 ^ 1023 := mul_le_mul_of_nonneg_left h two_pos.le
    _ = 2 ^ 1024 := (pow_succ' 2 1023).symm

theorem not_isFinite_nearest {v : ℚ} (hv : leastNormal ≤ v) (h : 2 ^ 1024 ≤ v) :
    ¬(nearest v hv).IsFinite := by
  have hlog := (Int.zpow_le_iff_le_log one_lt_two (leastNormal_pos.trans_le hv)).mp
    (show ((2 : ℕ) : ℚ) ^ (1024 : ℤ) ≤ v by exact_mod_cast h)
  have hplace : 972 ≤ lastPlace v := by
    rw [lastPlace]
    omega
  rw [IsFinite, nearest]
  split_ifs <;> simp only <;> omega

end Normal

theorem powerOfTen_eq (e : Fin Float.exactlyRepresentablePowersOfTen.size) :
    Float.exactlyRepresentablePowersOfTen[e] = .ofModel (.ofNat (10 ^ e.val)) := by
  revert e
  decide +kernel

theorem ofNat_eq {n : ℕ} (hn : 0 < n) :
    Float.ofModel (.ofNat n) = (nearest n (leastNormal_le_natCast hn)).toFloat := by
  rw [Normal.toFloat, ← ofNat_finite hn]
  rfl

/-- A binary64 number is exactly a value. -/
def Holds (x : Float) (v : ℚ) : Prop := ∃ n : Normal, n.IsFinite ∧ n.toFloat = x ∧ n.size = v

theorem Holds.mul {x y : Float} {v w : ℚ} (hx : Holds x v) (hy : Holds y w)
    (hv : leastNormal ≤ v * w) : x * y = (nearest (v * w) hv).toFloat := by
  obtain ⟨n, hn, rfl, rfl⟩ := hx
  obtain ⟨n', hn', rfl, rfl⟩ := hy
  exact Normal.toFloat_mul hn hn' hv

theorem Holds.div {x y : Float} {v w : ℚ} (hx : Holds x v) (hy : Holds y w)
    (hv : leastNormal ≤ v / w) : x / y = (nearest (v / w) hv).toFloat := by
  obtain ⟨n, hn, rfl, rfl⟩ := hx
  obtain ⟨n', hn', rfl, rfl⟩ := hy
  exact Normal.toFloat_div hn hn' hv

theorem holds_nearest {v : ℚ} (hv : leastNormal ≤ v) (h : v ≤ 2 ^ 1023) {w : ℚ}
    (hsize : (nearest v hv).size = w) : Holds (nearest v hv).toFloat w :=
  ⟨_, Normal.isFinite_nearest hv h, rfl, hsize⟩

theorem natCast_le_of_le {n : ℕ} (h : n ≤ 2 ^ 74) : (n : ℚ) ≤ 2 ^ 1023 :=
  le_trans (by exact_mod_cast h) (pow_le_pow_right₀ one_le_two (show 74 ≤ 1023 by omega))

theorem holds_natCast {n : ℕ} (hn : 0 < n) (h : n < 2 ^ 53) : Holds (.ofModel (.ofNat n)) n := by
  rw [ofNat_eq hn]
  exact holds_nearest _ (natCast_le_of_le (h.le.trans (by norm_num)))
    (size_nearest_of_lt (e := 0) (by simp) h _)

theorem holds_toUInt64 {n : ℕ} (hn : 0 < n) (h : n < 2 ^ 53) : Holds n.toUInt64.toFloat n := by
  have hword : n.toUInt64.toNat = n := by
    rw [Nat.toUInt64_eq, UInt64.toNat_ofNat']
    exact Nat.mod_eq_of_lt (h.trans (by norm_num))
  have hmodel : n.toUInt64.toFloat = .ofModel (.ofNat n.toUInt64.toNat) := rfl
  rw [hmodel, hword]
  exact holds_natCast hn h

theorem holds_powerOfTen {e : ℕ} (he : e < Float.exactlyRepresentablePowersOfTen.size) :
    Holds Float.exactlyRepresentablePowersOfTen[e] (10 ^ e) := by
  have hpos : 0 < 10 ^ e := by positivity
  have he' : e ≤ 22 := Nat.le_of_lt_succ he
  have hfive : 5 ^ e < 2 ^ 53 :=
    lt_of_le_of_lt (Nat.pow_le_pow_right (by norm_num) he') (by norm_num)
  have hproduct : ((10 ^ e : ℕ) : ℚ) = (5 ^ e : ℕ) * 2 ^ (e : ℤ) := by
    rw [zpow_natCast]
    push_cast
    rw [← mul_pow]
    norm_num
  have hsmall : 10 ^ e ≤ 2 ^ 74 :=
    (Nat.pow_le_pow_right (by norm_num) he').trans (by norm_num)
  have hsize := size_nearest_of_lt hproduct hfive (leastNormal_le_natCast hpos)
  have hpower := powerOfTen_eq ⟨e, he⟩
  simp only [Fin.getElem_fin] at hpower
  rw [hpower, ofNat_eq hpos]
  exact holds_nearest _ (natCast_le_of_le hsmall) (by exact_mod_cast hsize)

theorem tenZpow_eq (e : ℤ) : (10 : ℚ) ^ e = 5 ^ e * 2 ^ e := by
  rw [← mul_zpow]
  norm_num

/-- A decimal is so small only if it is less than any normal number. -/
theorem le_exponent_of_leastNormal_le {m : ℕ} {e : ℤ} (hv : leastNormal ≤ (m : ℚ) * 10 ^ e) :
    -(2 ^ Format.binary64.exponentBits + m.log2 : ℤ) ≤ e := by
  have hexponentBits : (2 ^ Format.binary64.exponentBits : ℤ) = 2048 := rfl
  by_contra! hsmall
  have hfive : (5 : ℚ) ^ e ≤ 1 := zpow_le_one_of_nonpos₀ (by norm_num) (by omega)
  refine absurd hv (not_le_of_gt ?_)
  calc (m : ℚ) * 10 ^ e = 5 ^ e * (m * 2 ^ e) := by rw [tenZpow_eq]; ring
    _ ≤ m * 2 ^ e := mul_le_of_le_one_left (by positivity) hfive
    _ < 2 ^ (m.log2 + 1 + e) := lt_zpow_log2 m e
    _ ≤ leastNormal := zpow_le_zpow_right₀ one_le_two (by omega)

/-- Outside the table of powers of ten, the integers are multiplied or divided as they are. -/
theorem pack_ofScientific {m : ℕ} {e : ℤ} {v : ℚ} (hm : 0 < m) (hvalue : v = m * 10 ^ e)
    (hv : leastNormal ≤ v) :
    Float.ofModel (.pack (UnpackedFloat.ofScientific Format.binary64 m e)) =
      (nearest v hv).toFloat := by
  have hm' : (1 : ℚ) ≤ m := by exact_mod_cast hm
  have hnotSmall := not_lt_of_ge (le_exponent_of_leastNormal_le (hvalue ▸ hv))
  rw [UnpackedFloat.ofScientific, dif_neg hm.ne', if_neg hnotSmall]
  split_ifs with hlarge hnonneg
  · have hexponentBits : (2 ^ Format.binary64.exponentBits : ℤ) = 2048 := rfl
    have hbig : 2 ^ 1024 ≤ v := by
      have hfive : (1 : ℚ) ≤ 5 ^ e := one_le_zpow₀ (by norm_num) (by omega)
      calc (2 : ℚ) ^ 1024 = 2 ^ (1024 : ℤ) := (zpow_natCast 2 1024).symm
        _ ≤ 2 ^ e := zpow_le_zpow_right₀ one_le_two (by omega)
        _ ≤ 5 ^ e * 2 ^ e := le_mul_of_one_le_left (by positivity) hfive
        _ ≤ m * 10 ^ e := by
          rw [← tenZpow_eq]
          exact le_mul_of_one_le_left (by positivity) hm'
        _ = v := hvalue.symm
    rw [Normal.toFloat_eq_infinity (Normal.not_isFinite_nearest hv hbig)]
    rfl
  · have hten : (10 : ℚ) ^ e.toNat = 10 ^ e := by
      rw [← zpow_natCast, Int.toNat_of_nonneg hnonneg]
    have hone : 2 ^ ((0 : ℤ)) ≤ v := by
      rw [zpow_zero, hvalue, ← hten]
      exact le_trans hm' (le_mul_of_one_le_right (by positivity) (one_le_pow₀ (by norm_num)))
    have hbits : (Format.binary64.mantissaBits : ℤ) = 53 := rfl
    rw [Normal.toFloat]
    congr 2
    refine mul_finite _ _ ?_ hv (le_lastPlace_of_zpow_le (le_trans ?_ hone))
    · have hshift : (2 : ℚ) ^ Format.binary64.mantissaBits * 2 ^ (-53 : ℤ) = 1 := by
        norm_num [Format.mantissaBits]
      push_cast [Nat.shiftLeft_eq]
      rw [mul_one, hten, hbits, mul_assoc (m : ℚ), hshift, mul_one, hvalue]
    · exact zpow_le_zpow_right₀ one_le_two (by omega)
  · have hten : (10 : ℚ) ^ (-e).toNat = (10 ^ e)⁻¹ := by
      rw [← zpow_natCast, Int.toNat_of_nonneg (by omega), zpow_neg]
    rw [Normal.toFloat]
    congr 2
    refine div_finite _ _ ?_ hv
    push_cast
    rw [mul_one, mul_one, hten, div_inv_eq_mul, hvalue]

/-- What a decimal is read as. -/
theorem ofScientific_eq {m e : ℕ} {s : Bool} {v : ℚ} (hm : 0 < m)
    (hvalue : v = m * 10 ^ (if s then -e else e : ℤ)) (hv : leastNormal ≤ v) :
    Float.ofScientific m s e = (nearest v hv).toFloat := by
  rw [Float.ofScientific]
  split
  · rename_i hfast
    obtain ⟨hm', he⟩ := hfast
    have hdigits := holds_toUInt64 hm hm'
    have hpower := holds_powerOfTen (show e < Float.exactlyRepresentablePowersOfTen.size from
      Nat.lt_succ_of_le he)
    cases s with
    | false =>
      have hproduct : (m : ℚ) * 10 ^ e = v := by simpa using hvalue.symm
      subst hproduct
      exact hdigits.mul hpower hv
    | true =>
      have hquotient : (m : ℚ) / 10 ^ e = v := by
        rw [hvalue, if_pos rfl, zpow_neg, zpow_natCast, div_eq_mul_inv]
      subst hquotient
      exact hdigits.div hpower hv
  · cases s with
    | false => exact pack_ofScientific hm hvalue hv
    | true =>
      have hneg : Int.negOfNat e = -(e : ℤ) := Int.negOfNat_eq
      simp only [if_true, hneg]
      exact pack_ofScientific hm hvalue hv

end Stylesheet.Number
