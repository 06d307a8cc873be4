import Stylesheet.Proofs.Syntax.Position
import Stylesheet.Syntax.Parser

/-!
# Reading what stands at a cursor

Parsers pass blanks and comments before they look at anything, so what a parser makes of a text
depends on the text up to them. A cursor faces a text if the text is what it comes to, and a parser
reaches a value and a cursor if it yields them.
-/

namespace Stylesheet

/-! ## Letters are not blank -/

namespace Text

/-- The code points of blanks. -/
def blankPoints : List Nat :=
  [9, 10, 11, 12, 13, 0x20, 0x85, 0xA0, 0x1680, 0x2000, 0x2001, 0x2002, 0x2003, 0x2004, 0x2005,
    0x2006, 0x2007, 0x2008, 0x2009, 0x200A, 0x2028, 0x2029, 0x202F, 0x205F, 0x3000]

theorem mem_blankPoints_of_isBlank {c : Char} (h : isBlank c = true) : c.toNat ∈ blankPoints := by
  simp only [isBlank, Bool.or_eq_true, Bool.and_eq_true, decide_eq_true_eq, beq_iff_eq] at h
  simp only [blankPoints, List.mem_cons, List.not_mem_nil, or_false]
  omega

theorem isBlank_eq_false_of_isLetterOrNumeral {c : Char} (h : isLetterOrNumeral c = true) :
    isBlank c = false := by
  rw [Bool.eq_false_iff]
  intro hblank
  have hpoints : blankPoints.all (fun n => !inRanges alphabeticRanges n &&
      !inRanges numericRanges n) = true := by decide +kernel
  have hpoint := List.all_eq_true.mp hpoints _ (mem_blankPoints_of_isBlank hblank)
  simp only [isLetterOrNumeral, isLetter, Bool.or_eq_true] at h
  simp only [Bool.and_eq_true, Bool.not_eq_true'] at hpoint
  simp [hpoint] at h

end Text

/-! ## Texts without blanks and comments in front -/

namespace Lexeme

/-- Whether a text has no blanks and no comment in front. -/
def IsSolid (s : List Char) : Prop := triviaLength .blanks s = 0

theorem isSolid_nil : IsSolid [] := rfl

theorem isSolid_cons {c : Char} {s : List Char} (hblank : Text.isBlank c = false)
    (hslash : c ≠ '/') : IsSolid (c :: s) := by
  rw [IsSolid, triviaLength.eq_def]
  split <;> simp_all

/-- A slash is the start of a comment with another one or a star behind it. -/
theorem isSolid_slash {c : Char} {s : List Char} (hslash : c ≠ '/') (hstar : c ≠ '*') :
    IsSolid ('/' :: c :: s) := by
  have hblank : Text.isBlank '/' = false := by decide
  rw [IsSolid, triviaLength.eq_def]
  split <;> simp_all
  rename_i heq
  rw [← heq.1, hblank]

end Lexeme

namespace Cursor

open Lexeme (IsSolid)

variable {α β : Type} {m n : Nat} {c next last : Cursor} {x b : Char} {s : List Char}

/-! ## What a parser reaches -/

/-- A parser succeeds with a value and a cursor behind it. -/
def Reaches (p : Parse α n) (a : α) (next : Cursor) : Prop :=
  ∃ nearer, p = .ok ⟨a, next, nearer⟩

theorem Reaches.bind {p : Parse α m} {f : Parsed α m → Parse β n} {a : α} {e : β}
    (hp : Reaches p a next) (hf : ∀ nearer, Reaches (f ⟨a, next, nearer⟩) e last) :
    Reaches (p >>= f) e last := by
  obtain ⟨nearer, rfl⟩ := hp
  exact hf nearer

/-! ## What a cursor faces -/

/-- Up to blanks and comments, a cursor stands in front of a text. -/
def Faces (c : Cursor) (s : List Char) : Prop :=
  ∃ d : Cursor, d.rest = s ∧ c.skipTrivia = d.skipTrivia

theorem faces_of_rest_eq (h : c.rest = s) : c.Faces s := ⟨c, h, rfl⟩

namespace Faces

theorem skipTrivia (h : c.Faces s) : c.skipTrivia.Faces s := by
  obtain ⟨d, hd, heq⟩ := h
  exact ⟨d, hd, by rw [skipTrivia_skipTrivia, heq]⟩

theorem skipTrivia_of_blank {d : Cursor} (hd : d.rest = b :: s) (hb : Text.isBlank b = true) :
    d.skipTrivia = (d.skip 1).skipTrivia := by
  have hlength : Lexeme.triviaLength .blanks (b :: s) = 1 + Lexeme.triviaLength .blanks s := by
    have hslash : b ≠ '/' := by
      rintro rfl
      contradiction
    rw [Lexeme.triviaLength.eq_def]
    split <;> simp_all
  have hrest : (d.skip 1).rest = s := by simp [hd]
  rw [Cursor.skipTrivia, Cursor.skipTrivia, hd, hrest, hlength, skip_skip]

/-- A blank in front does not matter. -/
theorem of_blank (h : c.Faces (b :: s)) (hb : Text.isBlank b = true) : c.Faces s := by
  obtain ⟨d, hd, heq⟩ := h
  exact ⟨d.skip 1, by simp [hd], heq.trans (skipTrivia_of_blank hd hb)⟩

theorem rest_skipTrivia (h : c.Faces s) (hs : IsSolid s) : c.skipTrivia.rest = s := by
  obtain ⟨d, hd, heq⟩ := h
  rw [heq, Cursor.skipTrivia, hd, hs]
  exact hd

theorem peek?_skipTrivia (h : c.Faces (x :: s)) (hs : IsSolid (x :: s)) :
    c.skipTrivia.peek? = some x := by
  rw [peek?, h.rest_skipTrivia hs]
  rfl

/-- The character in front of what stands behind a blank. -/
theorem previous_skipTrivia (h : c.Faces (b :: s)) (hb : Text.isBlank b = true) (hs : IsSolid s) :
    c.skipTrivia.previous = some b := by
  obtain ⟨⟨offset, previous, rest⟩, rfl, heq⟩ := h
  rw [heq, skipTrivia_of_blank rfl hb, Cursor.skipTrivia]
  have hlength : Lexeme.triviaLength .blanks
      ((Cursor.mk offset previous (b :: s)).skip 1).rest = 0 := hs
  rw [hlength]
  rfl

/-- A character that stands here can be passed. -/
theorem expect (h : c.Faces (x :: s)) (hs : IsSolid (x :: s)) :
    ∃ next, Reaches (c.expect x) () next ∧ next.rest = s := by
  refine ⟨c.skipTrivia.skip 1, ?_, ?_⟩
  · rw [Cursor.expect]
    simp only [h.peek?_skipTrivia hs, dite_true]
    exact ⟨_, rfl⟩
  · rw [rest_skip, h.rest_skipTrivia hs]
    rfl

end Faces

end Cursor

end Stylesheet
