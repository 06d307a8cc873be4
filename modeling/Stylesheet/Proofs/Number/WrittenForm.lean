import Mathlib.Data.List.DropRight
import Stylesheet.Proofs.Number.ReadBack
import Stylesheet.Proofs.Syntax.Seams

/-!
# Numbers as they are written

A number in a source is written with zeros that say nothing. Without them it is the text of a
decimal (`Lexeme.Number.positional_decimal`), and the number that is read is the one nearest to this
decimal (`Lexeme.Number.value_eq_toFloat`).
-/

namespace Stylesheet

/-! ## Digits -/

/-- Digits without the zeros at their front. -/
def trimFront (digits : List Char) : List Char := digits.dropWhile (· == '0')

/-- Digits without the zeros at their back. -/
def trimBack (digits : List Char) : List Char := digits.rdropWhile (· == '0')

theorem trimBack_eq (l : List Char) : trimBack l = (trimFront l.reverse).reverse := rfl

theorem length_trimFront_le (l : List Char) : (trimFront l).length ≤ l.length :=
  (List.dropWhile_suffix _).length_le

theorem length_trimBack_le (l : List Char) : (trimBack l).length ≤ l.length :=
  (List.rdropWhile_prefix _ l).length_le

/-- What is trimmed are zeros. -/
theorem replicate_append_trimFront (l : List Char) :
    List.replicate (l.length - (trimFront l).length) '0' ++ trimFront l = l := by
  induction l with
  | nil => rfl
  | cons c l ih =>
    by_cases hc : c = '0'
    · have htrim : trimFront (c :: l) = trimFront l := by simp [trimFront, hc]
      rw [htrim, List.length_cons, Nat.succ_sub (length_trimFront_le l), List.replicate_succ,
        List.cons_append, ih, hc]
    · have htrim : trimFront (c :: l) = c :: l := by simp [trimFront, hc]
      rw [htrim, Nat.sub_self, List.replicate_zero, List.nil_append]

theorem trimBack_append_replicate (l : List Char) :
    trimBack l ++ List.replicate (l.length - (trimBack l).length) '0' = l := by
  simpa [trimBack_eq] using congrArg List.reverse (replicate_append_trimFront l.reverse)

theorem trimFront_append (l m : List Char) :
    trimFront (l ++ m) = if trimFront l = [] then trimFront m else trimFront l ++ m := by
  by_cases h : l.dropWhile (· == '0') = [] <;>
    simp only [trimFront, List.dropWhile_append, h, List.isEmpty_nil, List.isEmpty_iff, if_true,
      if_false]

theorem trimBack_append (l m : List Char) :
    trimBack (l ++ m) = if trimBack m = [] then trimBack l else l ++ trimBack m := by
  rw [trimBack_eq, List.reverse_append, trimFront_append, trimBack_eq m]
  simp only [List.reverse_eq_nil_iff]
  split_ifs
  · rfl
  · rw [List.reverse_append, List.reverse_reverse]

theorem head?_trimFront (l : List Char) : (trimFront l).head? ≠ some '0' := by
  intro hhead
  have hfirst := List.head?_dropWhile_not (· == '0') l
  rw [← trimFront, hhead] at hfirst
  simp at hfirst

/-- Trimmed digits end in a digit that is not zero. -/
theorem trimBack_eq_concat {l : List Char} (h : trimBack l ≠ []) :
    ∃ c ≠ '0', ∃ m, trimBack l = m ++ [c] := by
  refine ⟨(trimBack l).getLast h, ?_, (trimBack l).dropLast, (List.dropLast_append_getLast h).symm⟩
  simpa [trimBack] using List.rdropWhile_last_not (· == '0') l h

namespace Lexeme.Number

theorem digitsValue_eq (l : List Char) : digitsValue l = Nat.ofDigitChars 10 l 0 :=
  Nat.ofDigitChars_eq_foldl.symm

theorem digitsValue_append (l m : List Char) :
    digitsValue (l ++ m) = digitsValue l * 10 ^ m.length + digitsValue m := by
  rw [digitsValue_eq, digitsValue_eq, digitsValue_eq, Nat.ofDigitChars_append,
    Nat.ofDigitChars_eq_ofDigitChars_zero, mul_comm]

theorem digitsValue_replicate (n : ℕ) : digitsValue (List.replicate n '0') = 0 := by
  rw [digitsValue_eq, Nat.ofDigitChars_replicate_zero, mul_zero]

theorem exists_digitChar {c : Char} (h : c.isDigit = true) :
    ∃ n < 10, Nat.digitChar n = c := by
  have hbounds := Char.isDigit_iff_toNat.mp h
  have hlow : 48 ≤ c.toNat := hbounds.1
  have hhigh : c.toNat ≤ 57 := hbounds.2
  refine ⟨c.toNat - 48, by omega, Char.toNat_inj.mp ?_⟩
  interval_cases c.toNat <;> rfl

theorem digitsValue_concat {l : List Char} {n : ℕ} (hn : n < 10) :
    digitsValue (l ++ [n.digitChar]) = 10 * digitsValue l + n := by
  rw [digitsValue_eq, digitsValue_eq, Nat.ofDigitChars_append,
    Nat.ofDigitChars_cons_digitChar_of_lt_ten hn, Nat.ofDigitChars_nil]

theorem digitsValue_lt {l : List Char} (h : ∀ c ∈ l, c.isDigit = true) :
    digitsValue l < 10 ^ l.length := by
  induction l using List.reverseRecOn with
  | nil => exact Nat.one_pos
  | append_singleton l c ih =>
    obtain ⟨n, hn, rfl⟩ := exists_digitChar (h c (by simp))
    have hl := ih fun d hd => h d (by simp [hd])
    rw [digitsValue_concat hn, List.length_append, List.length_singleton, pow_succ]
    omega

/-- Digits that do not start with a zero are those of their value. -/
theorem toDigits_digitsValue {l : List Char} (h : ∀ c ∈ l, c.isDigit = true) (hne : l ≠ [])
    (hhead : l.head? ≠ some '0') : Nat.toDigits 10 (digitsValue l) = l := by
  induction l using List.reverseRecOn with
  | nil => exact absurd rfl hne
  | append_singleton l c ih =>
    obtain ⟨n, hn, rfl⟩ := exists_digitChar (h c (by simp))
    rw [digitsValue_concat hn]
    by_cases hl : l = []
    · subst hl
      rw [show 10 * digitsValue [] + n = n from Nat.zero_add n, Nat.toDigits_of_lt_base hn,
        List.nil_append]
    · have hhead' : l.head? ≠ some '0' := by rwa [List.head?_append_of_ne_nil _ hl] at hhead
      have hdigits := ih (fun d hd => h d (by simp [hd])) hl hhead'
      have hpos : 0 < digitsValue l := by
        refine Nat.pos_of_ne_zero fun hzero => hhead' ?_
        rw [← hdigits, hzero]
        rfl
      rw [← Nat.toDigits_append_toDigits (by norm_num) hpos hn, hdigits,
        Nat.toDigits_of_lt_base hn]

/-! ## The decimal that is written -/

/-- The digits from the first to the last that is not zero. -/
def significant (n : Number) : List Char := trimFront (trimBack (n.whole ++ n.fraction))

/-- How many digits stand behind the point, zeros at the end not counted. -/
def places (n : Number) : ℕ := (trimBack n.fraction).length

/-- The digits in front of the point, of which there is at least one. -/
def plainWhole (n : Number) : List Char :=
  if trimFront n.whole = [] then ['0'] else trimFront n.whole

/-- The digits behind the point with the point, if there are any. -/
def plainFraction (n : Number) : List Char :=
  if trimBack n.fraction = [] then [] else '.' :: trimBack n.fraction

/-- The number as it is written, without zeros at the front but one in front of a point, without
zeros at the end behind the point and without a point that has no digits behind it. -/
def plain (n : Number) : String := String.ofList (n.plainWhole ++ n.plainFraction)

/-- The exact value of what is written. -/
def size (n : Number) : ℚ := digitsValue (n.whole ++ n.fraction) / 10 ^ n.fraction.length

/-- The significant digits with the exponent of the last one. -/
def decimal (n : Number) : Stylesheet.Number.Decimal :=
  ⟨digitsValue n.significant, n.whole.length - (trimBack (n.whole ++ n.fraction)).length⟩

theorem digitsValue_trimFront (l : List Char) : digitsValue (trimFront l) = digitsValue l := by
  conv_rhs => rw [← replicate_append_trimFront l]
  rw [digitsValue_append, digitsValue_replicate, zero_mul, zero_add]

theorem digitsValue_trimBack (l : List Char) :
    digitsValue (trimBack l) * 10 ^ (l.length - (trimBack l).length) = digitsValue l := by
  conv_rhs => rw [← trimBack_append_replicate l]
  rw [digitsValue_append, digitsValue_replicate, List.length_replicate, add_zero]

theorem size_decimal (n : Number) : n.decimal.size = n.size := by
  have hlength := length_trimBack_le (n.whole ++ n.fraction)
  have hexponent : ((n.whole ++ n.fraction).length - (trimBack (n.whole ++ n.fraction)).length : ℕ)
      - (n.fraction.length : ℤ) = n.whole.length - (trimBack (n.whole ++ n.fraction)).length := by
    rw [List.length_append] at hlength ⊢
    omega
  rw [Stylesheet.Number.Decimal.size, decimal, significant, digitsValue_trimFront, size,
    ← digitsValue_trimBack (n.whole ++ n.fraction)]
  simp only
  rw [← hexponent, zpow_sub₀ (by norm_num), zpow_natCast, zpow_natCast]
  push_cast
  ring

/-- Nothing but digits stands around the point. -/
def IsDigits (n : Number) : Prop := ∀ c ∈ n.whole ++ n.fraction, c.isDigit = true

section

variable {n : Number}

/-- The significant digits end in a digit that is not zero. -/
theorem significant_eq_concat (h : n.significant ≠ []) :
    ∃ c ≠ '0', ∃ m, n.significant = m ++ [c] := by
  have hback : trimBack (n.whole ++ n.fraction) ≠ [] := by
    intro hnil
    rw [significant, hnil] at h
    exact h rfl
  obtain ⟨c, hc, m, hm⟩ := trimBack_eq_concat hback
  refine ⟨c, hc, trimFront m, ?_⟩
  have hsingle : trimFront [c] = [c] := by simp [trimFront, hc]
  rw [significant, hm, trimFront_append]
  split_ifs with hfront
  · rw [hsingle, hfront, List.nil_append]
  · rfl

theorem mem_of_mem_significant {c : Char} (h : c ∈ n.significant) : c ∈ n.whole ++ n.fraction :=
  (List.rdropWhile_prefix _ _).subset ((List.dropWhile_suffix _).subset h)

theorem isShort_decimal (hdigits : n.IsDigits) (hne : n.significant ≠ [])
    (hlength : n.significant.length ≤ 15) (hplaces : n.places ≤ 10) : n.decimal.IsShort where
  digits_lt :=
    (digitsValue_lt fun c hc => hdigits c (mem_of_mem_significant hc)).trans_le
      (Nat.pow_le_pow_right (by norm_num) hlength)
  last_ne_zero := by
    obtain ⟨c, hc, m, hm⟩ := significant_eq_concat hne
    have hmem : c ∈ n.significant := by simp [hm]
    obtain ⟨k, hk, rfl⟩ := exists_digitChar (hdigits c (mem_of_mem_significant hmem))
    have hlast : n.decimal.digits = 10 * digitsValue m + k := by
      rw [decimal, hm, digitsValue_concat hk]
    rw [ne_eq, Nat.digitChar_eq_zero] at hc
    omega
  le_exponent := by
    have hback := length_trimBack_le n.whole
    rw [places] at hplaces
    rw [decimal, trimBack_append]
    split_ifs
    · simp only
      omega
    · rw [List.length_append]
      simp only
      omega

section

variable (hfraction : trimBack n.fraction = [])

include hfraction

theorem significant_of_integer : n.significant = trimFront (trimBack n.whole) := by
  rw [significant, trimBack_append, if_pos hfraction]

theorem exponent_of_integer :
    n.decimal.exponent = (n.whole.length - (trimBack n.whole).length : ℕ) := by
  have hback := length_trimBack_le n.whole
  rw [decimal, trimBack_append, if_pos hfraction]
  simp only
  omega

/-- The digits of an integer end in zeros. -/
theorem significant_append_zeros (hne : n.significant ≠ []) :
    n.significant ++ List.replicate n.decimal.exponent.toNat '0' = trimFront n.whole := by
  have hsplit := trimFront_append (trimBack n.whole)
    (List.replicate (n.whole.length - (trimBack n.whole).length) '0')
  rw [trimBack_append_replicate, ← significant_of_integer hfraction, if_neg hne] at hsplit
  rw [exponent_of_integer hfraction, Int.toNat_natCast, hsplit]

end

section

variable (hfraction : trimBack n.fraction ≠ [])

include hfraction

theorem exponent_of_fraction : n.decimal.exponent = -(n.places : ℤ) := by
  rw [decimal, trimBack_append, if_neg hfraction, List.length_append, places]
  push_cast
  ring

/-- With a zero in front if they lack one, the digits of a fraction are those around the point. -/
theorem padded_significant :
    List.replicate (n.places + 1 - n.significant.length) '0' ++ n.significant =
      n.plainWhole ++ trimBack n.fraction := by
  rw [significant, trimBack_append, if_neg hfraction, trimFront_append, places, plainWhole]
  split_ifs with hwhole
  · have hzeros := replicate_append_trimFront (trimBack n.fraction)
    rw [Nat.succ_sub (length_trimFront_le _), List.replicate_succ, List.cons_append, hzeros,
      List.singleton_append]
  · have hlength : 0 < (trimFront n.whole).length := List.length_pos_of_ne_nil hwhole
    rw [List.length_append, Nat.sub_eq_zero_of_le (by omega), List.replicate_zero, List.nil_append]

end

/-- Without its superfluous zeros a number is the text of its decimal. -/
theorem positional_decimal (hdigits : n.IsDigits) (hne : n.significant ≠ []) :
    n.decimal.positional = n.plain := by
  have htoDigits : Nat.toDigits 10 n.decimal.digits = n.significant :=
    toDigits_digitsValue (fun c hc => hdigits c (mem_of_mem_significant hc)) hne (head?_trimFront _)
  rw [Stylesheet.Number.Decimal.positional, plain, plainFraction]
  simp only [htoDigits]
  by_cases hfraction : trimBack n.fraction = []
  · have hplaces : (-n.decimal.exponent).toNat = 0 := by
      rw [exponent_of_integer hfraction]
      omega
    have hwhole := significant_append_zeros hfraction hne
    have hwhole' : trimFront n.whole ≠ [] := by
      rw [← hwhole]
      exact List.append_ne_nil_of_left_ne_nil hne _
    rw [if_pos hplaces, plainWhole, if_neg hwhole', if_pos hfraction, List.append_nil, hwhole]
  · have hplaces : (-n.decimal.exponent).toNat = n.places := by
      rw [exponent_of_fraction hfraction]
      omega
    have hpos : n.places ≠ 0 := by
      rw [places]
      exact fun hzero => hfraction (List.length_eq_zero_iff.mp hzero)
    have hlength : (n.plainWhole ++ trimBack n.fraction).length - n.places =
        n.plainWhole.length := by
      rw [List.length_append, places, Nat.add_sub_cancel]
    rw [hplaces, if_neg hpos, padded_significant hfraction, if_neg hfraction, hlength,
      List.take_left' rfl, List.drop_left' rfl]

/-! ## The number that is read -/

theorem value_eq (hv : Stylesheet.Number.leastNormal ≤ n.size) :
    n.value = (Stylesheet.Number.nearest n.size hv).toFloat := by
  have hpos : 0 < digitsValue (n.whole ++ n.fraction) := by
    refine Nat.pos_of_ne_zero fun hzero => ?_
    rw [size, hzero, Nat.cast_zero, zero_div] at hv
    exact absurd hv (not_le_of_gt Stylesheet.Number.leastNormal_pos)
  refine Stylesheet.Number.ofScientific_eq hpos ?_ hv
  rw [size, if_pos rfl, zpow_neg, zpow_natCast, div_eq_mul_inv]

theorem value_eq_toFloat (h : n.decimal.IsShort) : n.value = n.decimal.toFloat := by
  have hleast := h.leastNormal_le
  have hnumber := h.toFloat_eq_nearest
  simp only [size_decimal] at hleast hnumber
  rw [value_eq hleast, hnumber]

/-- Without significant digits there are zeros only. -/
theorem trim_eq_nil (h : n.significant = []) :
    trimFront n.whole = [] ∧ trimBack n.fraction = [] ∧
      digitsValue (n.whole ++ n.fraction) = 0 := by
  have hback : trimBack (n.whole ++ n.fraction) = [] := by
    by_contra hne
    obtain ⟨c, hc, m, hm⟩ := trimBack_eq_concat hne
    rw [significant, trimFront, List.dropWhile_eq_nil_iff] at h
    exact hc (by simpa using h c (by simp [hm]))
  have hzeros : ∀ c ∈ n.whole ++ n.fraction, (c == '0') = true :=
    List.rdropWhile_eq_nil_iff.mp hback
  refine ⟨List.dropWhile_eq_nil_iff.mpr fun c hc => hzeros c (by simp [hc]),
    List.rdropWhile_eq_nil_iff.mpr fun c hc => hzeros c (by simp [hc]), ?_⟩
  rw [← digitsValue_trimBack, hback]
  exact zero_mul _

theorem plain_of_significant_eq_nil (h : n.significant = []) : n.plain = "0" := by
  obtain ⟨hwhole, hfraction, -⟩ := trim_eq_nil h
  rw [plain, plainWhole, plainFraction, if_pos hwhole, if_pos hfraction]
  rfl

theorem value_of_significant_eq_nil (h : n.significant = []) : n.value = 0 := by
  obtain ⟨-, -, hzero⟩ := trim_eq_nil h
  rw [value, hzero]
  exact Stylesheet.Number.ofScientific_zero _ _

end

end Lexeme.Number

namespace Lexeme

/-- The number that is read is what stands there. -/
theorem take_length_number (s : List Char) : s.take (number s).length = (number s).text := by
  have hempty {l : List Char} : (if l.isEmpty then [] else '.' :: l) =
      if l = [] then [] else '.' :: l := by
    cases l <;> rfl
  rw [length_number, List.take_add, List.take_add, take_length_takeWhile, fractionAt_eq_self,
    ← List.drop_drop, ← behindFraction_eq, take_length_unitAt, hempty]
  rfl

theorem isDigits_number (s : List Char) : (number s).IsDigits := by
  rw [number_eq_parts]
  refine List.forall_mem_append.mpr ⟨fun c hc => List.mem_takeWhile_imp hc, fun c hc => ?_⟩
  simp only [fractionAt.eq_def] at hc
  split at hc
  · exact List.mem_takeWhile_imp hc
  · contradiction

end Lexeme

namespace Number.Decimal

/-! ## The text of a decimal -/

/-- All digits of a decimal that has digits behind its point, with a zero in front if need be. -/
def padded (d : Decimal) : List Char :=
  List.replicate ((-d.exponent).toNat + 1 - (Nat.toDigits 10 d.digits).length) '0' ++
    Nat.toDigits 10 d.digits

/-- The literal that a decimal is written as. -/
def literal (d : Decimal) : Lexeme.Number :=
  if (-d.exponent).toNat = 0 then
    ⟨Nat.toDigits 10 d.digits ++ List.replicate d.exponent.toNat '0', [], []⟩
  else
    ⟨d.padded.take (d.padded.length - (-d.exponent).toNat),
      d.padded.drop (d.padded.length - (-d.exponent).toNat), []⟩

variable (d : Decimal)

theorem isDigit_toDigits {n : ℕ} : ∀ c ∈ Nat.toDigits 10 n, c.isDigit = true :=
  fun _ hc => Nat.isDigit_of_mem_toDigits (by norm_num) (by norm_num) hc

theorem isDigit_replicate {n : ℕ} : ∀ c ∈ List.replicate n '0', c.isDigit = true := by
  intro c hc
  rw [List.eq_of_mem_replicate hc]
  rfl

theorem isDigit_padded : ∀ c ∈ d.padded, c.isDigit = true :=
  List.forall_mem_append.mpr ⟨isDigit_replicate, isDigit_toDigits⟩

theorem length_padded : (-d.exponent).toNat + 1 ≤ d.padded.length := by
  rw [padded, List.length_append, List.length_replicate]
  omega

theorem length_drop_padded :
    (d.padded.drop (d.padded.length - (-d.exponent).toNat)).length = (-d.exponent).toNat := by
  have hlength := d.length_padded
  rw [List.length_drop]
  omega

theorem positional_eq : d.positional = String.ofList d.literal.text := by
  rw [positional, literal]
  split_ifs with hplaces
  · rw [Lexeme.Number.text, if_pos rfl, List.append_nil, List.append_nil]
  · have hfraction : d.padded.drop (d.padded.length - (-d.exponent).toNat) ≠ [] := by
      refine List.ne_nil_of_length_pos ?_
      rw [length_drop_padded]
      exact Nat.pos_of_ne_zero hplaces
    rw [Lexeme.Number.text, if_neg hfraction, List.append_nil]
    rfl

theorem isLiteral_literal : d.literal.IsLiteral := by
  have hlength := d.length_padded
  rw [literal]
  split_ifs with hplaces
  · refine ⟨List.forall_mem_append.mpr ⟨isDigit_toDigits, isDigit_replicate⟩, by simp, ?_, by simp⟩
    simp [Lexeme.Number.isPresent]
  · refine ⟨fun c hc => d.isDigit_padded c (List.mem_of_mem_take hc),
      fun c hc => d.isDigit_padded c (List.mem_of_mem_drop hc), ?_, by simp⟩
    simp only [Lexeme.Number.isPresent, Bool.or_eq_true, Bool.not_eq_true',
      List.isEmpty_eq_false_iff]
    refine .inr (List.ne_nil_of_length_pos ?_)
    rw [length_drop_padded]
    exact Nat.pos_of_ne_zero hplaces

theorem digitsValue_toDigits (n : ℕ) : Lexeme.Number.digitsValue (Nat.toDigits 10 n) = n := by
  rw [Lexeme.Number.digitsValue_eq, Nat.ofDigitChars_ten_toDigits]

theorem size_literal : d.literal.size = d.size := by
  rw [literal]
  split_ifs with hplaces
  · obtain ⟨e, he⟩ := Int.eq_ofNat_of_zero_le (show 0 ≤ d.exponent by omega)
    rw [Lexeme.Number.size, List.append_nil, Lexeme.Number.digitsValue_append,
      digitsValue_toDigits, Lexeme.Number.digitsValue_replicate, size, he]
    simp
  · have hexponent : d.exponent = -((-d.exponent).toNat : ℤ) := by omega
    rw [Lexeme.Number.size, List.take_append_drop, length_drop_padded, padded,
      Lexeme.Number.digitsValue_append, digitsValue_toDigits,
      Lexeme.Number.digitsValue_replicate, zero_mul, zero_add, size]
    conv_rhs => rw [hexponent]
    rw [zpow_neg, zpow_natCast, div_eq_mul_inv]

/-- The text of a decimal tells its value. -/
theorem size_eq_of_positional_eq {d d' : Decimal} (h : d.positional = d'.positional) :
    d.size = d'.size := by
  rw [positional_eq, positional_eq, String.ofList_inj] at h
  have hnumber : Lexeme.number (d.literal.text ++ [' ']) = d.literal :=
    d.isLiteral_literal.number_eq (by decide)
  rw [h, d'.isLiteral_literal.number_eq (by decide)] at hnumber
  rw [← size_literal, ← size_literal, hnumber]

end Number.Decimal

end Stylesheet
