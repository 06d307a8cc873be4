import Stylesheet.Proofs.Source.Offsets

/-!
# Code units

The UTF-16 code units of a text, one by one. A character beyond the basic plane is a pair of
surrogates and no other character is one, so a place among the units lies between two characters
unless it splits a pair (`exists_front_iff`). Lines are the same in both views of a text.
-/

namespace Stylesheet.Text

/-! ## Encoding -/

/-- The code units of a character: its code point, or a leading and a trailing surrogate. -/
def unitsOf (c : Char) : List Nat :=
  if c.toNat < 0x10000 then [c.toNat]
  else [0xD800 + (c.toNat - 0x10000) / 0x400, 0xDC00 + (c.toNat - 0x10000) % 0x400]

/-- The code units of a text. -/
def units (s : List Char) : List Nat := s.flatMap unitsOf

def isLeading (unit : Nat) : Bool := 0xD800 ≤ unit && unit < 0xDC00

def isTrailing (unit : Nat) : Bool := 0xDC00 ≤ unit && unit < 0xE000

/-- Whether a place among code units lies between the two surrogates of a pair. -/
def splitsPair (us : List Nat) (n : Nat) : Bool :=
  (us.take n).getLast?.any isLeading && (us.drop n).head?.any isTrailing

example : units ['a', '😀', '\n'] = [0x61, 0xD83D, 0xDE00, 0x0A] := by decide

@[simp] theorem units_nil : units [] = [] := rfl

@[simp] theorem units_cons (c : Char) (s : List Char) : units (c :: s) = unitsOf c ++ units s :=
  List.flatMap_cons

@[simp] theorem units_append (s t : List Char) : units (s ++ t) = units s ++ units t :=
  List.flatMap_append

theorem length_unitsOf (c : Char) : (unitsOf c).length = unitSize c := by
  unfold unitsOf unitSize
  split <;> rfl

@[simp] theorem length_units (s : List Char) : (units s).length = unitLength s := by
  induction s with
  | nil => rfl
  | cons c s ih => rw [units_cons, List.length_append, length_unitsOf, ih, unitLength_cons]

/-- What stands in front of a place that is some units behind a front. -/
theorem take_units (front rest : List Char) (k : Nat) :
    (units (front ++ rest)).take (unitLength front + k) = units front ++ (units rest).take k := by
  rw [units_append, ← length_units, List.take_length_add_append]

/-- What stands behind a place that is some units behind a front. -/
theorem drop_units (front rest : List Char) (k : Nat) :
    (units (front ++ rest)).drop (unitLength front + k) = (units rest).drop k := by
  rw [units_append, ← length_units, List.drop_length_add_append]

theorem take_units_front (front rest : List Char) :
    (units (front ++ rest)).take (unitLength front) = units front := by
  rw [units_append, ← length_units, List.take_left]

theorem drop_units_front (front rest : List Char) :
    (units (front ++ rest)).drop (unitLength front) = units rest := by
  rw [units_append, ← length_units, List.drop_left]

/-! ## Pairs of surrogates -/

theorem isTrailing_eq_false_of_isLeading {unit : Nat} (h : isLeading unit = true) :
    isTrailing unit = false := by
  simp only [isLeading, isTrailing, Bool.and_eq_true, decide_eq_true_eq, Bool.and_eq_false_iff,
    decide_eq_false_iff_not] at h ⊢
  omega

/-- No code point is a surrogate. -/
theorem toNat_not_surrogate (c : Char) :
    c.toNat < 0xD800 ∨ 0xDFFF < c.toNat ∧ c.toNat < 0x110000 := by
  have hvalid := c.valid
  rwa [UInt32.isValidChar, Nat.isValidChar] at hvalid

theorem isTrailing_toNat (c : Char) : isTrailing c.toNat = false := by
  have hpoint := toNat_not_surrogate c
  simp only [isTrailing, Bool.and_eq_false_iff, decide_eq_false_iff_not]
  omega

/-- A character beyond the basic plane is a pair of surrogates. -/
theorem exists_surrogates {c : Char} (h : ¬c.toNat < 0x10000) :
    ∃ leading trailing, unitsOf c = [leading, trailing] ∧ isLeading leading = true ∧
      isTrailing trailing = true := by
  refine ⟨_, _, if_neg h, ?_, ?_⟩
  · have hpoint : c.toNat - 0x10000 < 0x100000 := by
      have := toNat_not_surrogate c
      omega
    generalize c.toNat - 0x10000 = n at hpoint
    simp only [isLeading, Bool.and_eq_true, decide_eq_true_eq]
    omega
  · generalize c.toNat - 0x10000 = n
    simp only [isTrailing, Bool.and_eq_true, decide_eq_true_eq]
    omega

theorem isTrailing_head_units (s : List Char) : (units s).head?.any isTrailing = false := by
  cases s with
  | nil => rfl
  | cons c s =>
    by_cases h : c.toNat < 0x10000
    · rw [units_cons, unitsOf, if_pos h]
      exact isTrailing_toNat c
    · obtain ⟨leading, trailing, hunits, hleading, -⟩ := exists_surrogates h
      rw [units_cons, hunits]
      exact isTrailing_eq_false_of_isLeading hleading

theorem splitsPair_between (front rest : List Char) :
    splitsPair (units (front ++ rest)) (unitLength front) = false := by
  rw [splitsPair, drop_units_front, isTrailing_head_units, Bool.and_false]

/-- A place inside a character has its leading surrogate in front and the trailing one behind. -/
theorem splitsPair_inside (front tail : List Char) {c : Char} {k : Nat} (hpos : 0 < k)
    (hk : k < unitSize c) :
    splitsPair (units (front ++ c :: tail)) (unitLength front + k) = true := by
  have hwide : ¬c.toNat < 0x10000 := by
    intro h
    rw [unitSize, if_pos h] at hk
    omega
  rw [unitSize, if_neg hwide] at hk
  obtain rfl : k = 1 := by omega
  obtain ⟨leading, trailing, hunits, hleading, htrailing⟩ := exists_surrogates hwide
  rw [splitsPair, take_units, drop_units, units_cons, hunits]
  simp [hleading, htrailing]

/-- A place among the units of a text stands some units behind a front, and less than the character
behind it. -/
theorem exists_place {s : List Char} {n : Nat} (h : n ≤ unitLength s) :
    ∃ front rest k, s = front ++ rest ∧ n = unitLength front + k ∧ k ≤ unitLength rest ∧
      ∀ c tail, rest = c :: tail → k < unitSize c := by
  obtain ⟨front, rest, rfl, hfront, hnext⟩ := exists_front_le unitSize n s
  obtain ⟨k, rfl⟩ := Nat.exists_eq_add_of_le (show unitLength front ≤ n from hfront)
  rw [unitLength_append] at h
  refine ⟨front, rest, k, rfl, rfl, by omega, ?_⟩
  intro c tail hrest
  have hbound : unitLength front + k < unitLength front + unitSize c := hnext c tail hrest
  omega

/-- A place among the units of a text lies between two characters unless it splits a pair. -/
theorem exists_front_iff {s : List Char} {n : Nat} :
    (∃ front rest, s = front ++ rest ∧ unitLength front = n) ↔
      n ≤ (units s).length ∧ splitsPair (units s) n = false := by
  constructor
  · rintro ⟨front, rest, rfl, rfl⟩
    refine ⟨?_, splitsPair_between front rest⟩
    rw [length_units, unitLength_append]
    omega
  · rintro ⟨hle, hsplits⟩
    rw [length_units] at hle
    obtain ⟨front, rest, k, rfl, rfl, hk, hnext⟩ := exists_place hle
    rcases Nat.eq_zero_or_pos k with rfl | hpos
    · exact ⟨front, rest, rfl, rfl⟩
    · cases rest with
      | nil =>
        rw [unitLength_nil] at hk
        omega
      | cons c tail =>
        rw [splitsPair_inside front tail hpos (hnext c tail rfl)] at hsplits
        contradiction

/-! ## Lines -/

theorem newline_mem_unitsOf_iff {c : Char} : 0x0A ∈ unitsOf c ↔ c = '\n' := by
  have hnewline : c = '\n' ↔ c.toNat = 0x0A := Char.toNat_inj.symm
  rw [unitsOf, hnewline]
  split
  · simp [eq_comm]
  · simp
    omega

theorem ne_newline_of_mem_unitsOf {c : Char} (hc : c ≠ '\n') :
    ∀ u ∈ unitsOf c, (u != 0x0A) = true := by
  intro u hu
  rw [bne_iff_ne]
  rintro rfl
  exact hc (newline_mem_unitsOf_iff.mp hu)

/-- A proper part of a character holds no line feed. -/
theorem newline_not_mem_take_unitsOf {c : Char} {k : Nat} (hk : k < unitSize c) :
    0x0A ∉ (unitsOf c).take k := by
  intro h
  obtain rfl := newline_mem_unitsOf_iff.mp (List.mem_of_mem_take h)
  obtain rfl : k = 0 := by
    rw [unitSize_newline] at hk
    omega
  simp at h

theorem count_units (s : List Char) : (units s).count 0x0A = s.count '\n' := by
  induction s with
  | nil => rfl
  | cons c s ih =>
    rw [units_cons, List.count_append, ih, List.count_cons]
    by_cases hc : c = '\n'
    · subst hc
      rw [Nat.add_comm]
      rfl
    · rw [List.count_eq_zero.mpr (mt newline_mem_unitsOf_iff.mp hc)]
      simp [hc]

/-- A run of entries at the end of a list is taken with what is taken in front of it. -/
theorem rtakeWhile_append_of_forall {α : Type} {p : α → Bool} {t : List α} (s : List α)
    (h : ∀ a ∈ t, p a = true) : (s ++ t).rtakeWhile p = s.rtakeWhile p ++ t := by
  have hrun : ∀ a ∈ t.reverse, p a = true := fun a ha => h a (List.mem_reverse.mp ha)
  rw [List.rtakeWhile, List.rtakeWhile, List.reverse_append, List.takeWhile_append_of_pos hrun,
    List.reverse_append, List.reverse_reverse]

theorem rtakeWhile_units (s : List Char) :
    (units s).rtakeWhile (· != 0x0A) = units (openLine s) := by
  induction s using List.reverseRecOn with
  | nil => rfl
  | append_singleton s c ih =>
    rw [units_append, units_cons, units_nil, List.append_nil, openLine_concat]
    by_cases hc : c = '\n'
    · subst hc
      rw [if_pos rfl]
      exact List.rtakeWhile_concat_neg _ _ _ (by simp)
    · have hplain := ne_newline_of_mem_unitsOf hc
      rw [rtakeWhile_append_of_forall _ hplain, ih, if_neg hc]
      simp

theorem takeWhile_units (s : List Char) :
    (units s).takeWhile (· != 0x0A) = units (firstLine s) := by
  induction s with
  | nil => rfl
  | cons c s ih =>
    rw [units_cons, firstLine]
    by_cases hc : c = '\n'
    · subst hc
      rfl
    · have hplain := ne_newline_of_mem_unitsOf hc
      rw [List.takeWhile_append_of_pos hplain, ih, List.takeWhile_cons_of_pos (by simpa using hc),
        units_cons]
      rfl

end Stylesheet.Text
