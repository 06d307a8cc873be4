import Mathlib.Order.Defs.PartialOrder
import Stylesheet.Syntax.Cursor

/-!
# Positions in a source text

The cursors that a parser comes to lie one behind another. A cursor that is reached from the start
of a text cuts it in two, and its offset is the length of the part passed.
-/

namespace Stylesheet

namespace Lexeme

/-- Behind blanks and comments there are no more of them. -/
theorem triviaLength_drop (mode : Trivia) (s : List Char) :
    triviaLength .blanks (s.drop (triviaLength mode s)) = 0 := by
  fun_induction triviaLength mode s with
  | case1 => rfl
  | case2 s ih => simpa [Nat.add_comm 2] using ih
  | case3 s ih => simpa [Nat.add_comm 2] using ih
  | case4 c s h₁ h₂ h ih => simpa [Nat.add_comm 1] using ih
  | case5 c s h₁ h₂ h =>
    rw [List.drop_zero, triviaLength.eq_def]
    split <;> simp_all
  | case6 c s ih => simpa [Nat.add_comm 1] using ih
  | case7 s ih => simpa [Nat.add_comm 2] using ih
  | case8 c s h ih => simpa [Nat.add_comm 1] using ih

end Lexeme

namespace Cursor

/-! ## The order of cursors -/

theorem skip_skip (c : Cursor) (m n : Nat) : (c.skip m).skip n = c.skip (m + n) := by
  induction m generalizing c with
  | zero => rw [Nat.zero_add, skip]
  | succ m ih =>
    rw [Nat.add_right_comm]
    cases h : c.rest with
    | nil => cases n <;> simp [skip, h]
    | cons d s => simpa [skip, h] using ih _

/-- A cursor lies behind those from which it is reached. -/
instance : Preorder Cursor where
  le c d := ∃ n, d = c.skip n
  le_refl c := ⟨0, by rw [skip]⟩
  le_trans := by
    rintro c d e ⟨m, rfl⟩ ⟨n, rfl⟩
    exact ⟨m + n, skip_skip c m n⟩

theorem le_skip (c : Cursor) (n : Nat) : c ≤ c.skip n := ⟨n, rfl⟩

theorem le_skipTrivia (c : Cursor) : c ≤ c.skipTrivia := c.le_skip _

/-- The place behind an operator that stands behind an expression. -/
theorem le_behind_operator (b : Cursor) : b ≤ (b.skipTrivia.skip 1).skipTrivia :=
  le_trans (le_trans b.le_skipTrivia (le_skip _ 1)) (le_skipTrivia _)

theorem offset_le {c d : Cursor} (h : c ≤ d) : c.offset ≤ d.offset := by
  obtain ⟨n, rfl⟩ := h
  rw [offset_skip]
  omega

@[simp] theorem skipTrivia_skipTrivia (c : Cursor) : c.skipTrivia.skipTrivia = c.skipTrivia := by
  have h : Lexeme.triviaLength .blanks c.skipTrivia.rest = 0 := by
    rw [skipTrivia, rest_skip, Lexeme.triviaLength_drop]
  change c.skipTrivia.skip (Lexeme.triviaLength .blanks c.skipTrivia.rest) = c.skipTrivia
  rw [h, skip]

/-! ## Cuts -/

/-- The range from one cursor to another. -/
def rangeTo (a b : Cursor) : Range := ⟨a.offset, b.offset⟩

theorem cover_rangeTo {a b c d : Cursor} (hac : a ≤ c) (hbd : b ≤ d) :
    (a.rangeTo b).cover (c.rangeTo d) = a.rangeTo d := by
  simp [Range.cover, rangeTo, offset_le hac, offset_le hbd]

/-- What stands between two cursors, and how long it is. -/
theorem exists_between {a b : Cursor} (h : a ≤ b) :
    ∃ text, a.rest = text ++ b.rest ∧ b.offset = a.offset + Text.byteLength text := by
  obtain ⟨n, rfl⟩ := h
  refine ⟨a.rest.take n, ?_, a.offset_skip n⟩
  rw [rest_skip, List.take_append_drop]

/-- What stands in front of a cursor is as long as its offset. -/
theorem exists_front {s : List Char} {a : Cursor} (h : start s ≤ a) :
    ∃ front, s = front ++ a.rest ∧ a.offset = Text.byteLength front := by
  obtain ⟨front, hrest, hoffset⟩ := exists_between h
  refine ⟨front, hrest, ?_⟩
  rw [hoffset]
  simp [start]

/-- The character at a cursor, and the text behind it. -/
theorem rest_of_peek? {a : Cursor} {c : Char} (h : a.peek? = some c) :
    a.rest = c :: (a.skip 1).rest := by
  rw [rest_skip]
  cases hrest : a.rest with
  | nil => simp [peek?, hrest] at h
  | cons d s =>
    rw [peek?, hrest] at h
    obtain rfl := Option.some.inj h
    rfl

/-! ## What a cursor passes -/

/-- The next cursor stands behind a character that is the first behind blanks and comments. -/
def Passes (x : Char) (c d : Cursor) : Prop :=
  c.skipTrivia.peek? = some x ∧ d = c.skipTrivia.skip 1

/-- The next cursor stands behind an identifier. -/
def Names (name : String) (c d : Cursor) : Prop :=
  Lexeme.ident c.rest ≠ [] ∧ name = String.ofList (Lexeme.ident c.rest) ∧
    d = c.skip (Lexeme.ident c.rest).length

theorem names_of_ident {name : String} {c : Cursor} (h : Lexeme.ident c.rest = name.toList)
    (hne : name.toList ≠ []) : c.Names name (c.skip name.toList.length) :=
  ⟨by rwa [h], by rw [h, String.ofList_toList], by rw [h]⟩

theorem Passes.le {x : Char} {c d : Cursor} (h : Passes x c d) : c ≤ d := by
  obtain ⟨_, rfl⟩ := h
  exact le_trans c.le_skipTrivia (c.skipTrivia.le_skip 1)

theorem Names.le {name : String} {c d : Cursor} (h : Names name c d) : c ≤ d := by
  obtain ⟨_, _, rfl⟩ := h
  exact c.le_skip _

end Cursor

end Stylesheet
