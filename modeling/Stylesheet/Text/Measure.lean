/-!
# Measuring and cutting text

A location counts UTF-16 code units and the syntax tree counts UTF-8 bytes. Both are sums of a
positive size over the characters of a text. `cut?_eq_some_iff` says what a cut at a measure is:
the one split of the text whose front has that measure.
-/

namespace Stylesheet.Text

/-- The number of UTF-16 code units of a character: two beyond the basic plane. -/
def unitSize (c : Char) : Nat := if c.toNat < 0x10000 then 1 else 2

/-- The sum of the sizes of the characters. -/
def measure (size : Char → Nat) (s : List Char) : Nat := s.foldr (size · + ·) 0

/-- The length of a text in UTF-16 code units. -/
def unitLength (s : List Char) : Nat := measure unitSize s

/-- The length of a text in UTF-8 bytes. -/
def byteLength (s : List Char) : Nat := measure Char.utf8Size s

/-- Splits a text behind a front of exactly the given measure. There is no such split past the
end of the text or inside a character. -/
def cut? (size : Char → Nat) : Nat → List Char → Option (List Char × List Char)
  | 0, s => some ([], s)
  | _ + 1, [] => none
  | n + 1, c :: s =>
    if size c ≤ n + 1 then
      (cut? size (n + 1 - size c) s).map fun (front, rest) => (c :: front, rest)
    else none

theorem unitSize_pos (c : Char) : 0 < unitSize c := by
  unfold unitSize
  split <;> omega

@[simp] theorem measure_nil (size : Char → Nat) : measure size [] = 0 := rfl

@[simp] theorem measure_cons (size : Char → Nat) (c : Char) (s : List Char) :
    measure size (c :: s) = size c + measure size s := by
  simp [measure]

@[simp] theorem measure_append (size : Char → Nat) (s t : List Char) :
    measure size (s ++ t) = measure size s + measure size t := by
  induction s with
  | nil => simp
  | cons c s ih => rw [List.cons_append, measure_cons, measure_cons, ih, Nat.add_assoc]

@[simp] theorem unitLength_nil : unitLength [] = 0 := rfl

@[simp] theorem unitLength_cons (c : Char) (s : List Char) :
    unitLength (c :: s) = unitSize c + unitLength s := measure_cons unitSize c s

@[simp] theorem unitLength_append (s t : List Char) :
    unitLength (s ++ t) = unitLength s + unitLength t := measure_append unitSize s t

@[simp] theorem byteLength_nil : byteLength [] = 0 := rfl

@[simp] theorem byteLength_cons (c : Char) (s : List Char) :
    byteLength (c :: s) = c.utf8Size + byteLength s := measure_cons Char.utf8Size c s

@[simp] theorem byteLength_append (s t : List Char) :
    byteLength (s ++ t) = byteLength s + byteLength t := measure_append Char.utf8Size s t

theorem byteLength_eq_utf8ByteSize (s : List Char) :
    byteLength s = (String.ofList s).utf8ByteSize := by
  induction s with
  | nil => rfl
  | cons c s ih =>
    rw [byteLength_cons, ih, String.ofList_cons, String.utf8ByteSize_append,
      String.utf8ByteSize_singleton]

theorem measure_cut? {size : Char → Nat} {n : Nat} {s front rest : List Char}
    (h : cut? size n s = some (front, rest)) : s = front ++ rest ∧ measure size front = n := by
  fun_induction cut? size n s generalizing front rest with
  | case1 s => simp_all
  | case2 => simp at h
  | case3 n c s hc ih =>
    obtain ⟨⟨front, rest⟩, hcut, heq⟩ := Option.map_eq_some_iff.mp h
    obtain ⟨rfl, rfl⟩ := Prod.mk.inj heq
    obtain ⟨rfl, hmeasure⟩ := ih hcut
    exact ⟨rfl, by simp only [measure_cons, hmeasure]; omega⟩
  | case4 => simp at h

theorem cut?_append {size : Char → Nat} (hpos : ∀ c, 0 < size c) (front rest : List Char) :
    cut? size (measure size front) (front ++ rest) = some (front, rest) := by
  induction front with
  | nil => simp [cut?]
  | cons c front ih =>
    obtain ⟨k, hk⟩ := Nat.exists_eq_add_one_of_ne_zero (Nat.ne_of_gt (hpos c))
    have hsum : measure size (c :: front) = (k + measure size front) + 1 := by
      rw [measure_cons]; omega
    rw [List.cons_append, hsum, cut?, if_pos (by omega), show k + measure size front + 1 - size c
      = measure size front by omega, ih, Option.map_some]

/-- A cut is the split whose front has the given measure. -/
theorem cut?_eq_some_iff {size : Char → Nat} (hpos : ∀ c, 0 < size c) {n : Nat}
    {s front rest : List Char} :
    cut? size n s = some (front, rest) ↔ s = front ++ rest ∧ measure size front = n := by
  refine ⟨measure_cut?, ?_⟩
  rintro ⟨rfl, rfl⟩
  exact cut?_append hpos front rest

end Stylesheet.Text
