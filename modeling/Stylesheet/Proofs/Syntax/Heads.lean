import Stylesheet.Proofs.Syntax.ExpressionGrammar
import Stylesheet.Proofs.Syntax.PrintedText

/-!
# How expressions start

An expression takes up some text, and its text starts like an item of a list: with a character
that is neither blank nor a slash, and not with a hyphen and a blank.
-/

namespace Stylesheet

namespace Lexeme

/-- What is read as a number starts with a digit or a point. -/
theorem exists_of_isPresent {s : List Char} (h : (number s).isPresent = true) :
    ∃ c t, s = c :: t ∧ (c.isDigit = true ∨ c = '.') := by
  match s, h with
  | [], h => contradiction
  | c :: t, h =>
    refine ⟨c, t, rfl, ?_⟩
    by_contra hc
    simp only [not_or, Bool.not_eq_true] at hc
    have hwhole : (c :: t).takeWhile Char.isDigit = [] := by simp [hc.1]
    rw [number] at h
    simp only [hwhole, List.length_nil, List.drop_zero] at h
    simp [Number.isPresent, hc.2] at h

theorem startsIdent_of_ident {s : List Char} (h : ident s ≠ []) : startsIdent s = true := by
  rw [← Bool.not_eq_false, ← ident_eq_nil_iff]
  exact h

theorem opens_of_ident {s : List Char} (h : ident s ≠ []) : Opens s := by
  obtain ⟨c, t, rfl, hc | ⟨rfl, d, u, rfl, hd⟩⟩ := exists_of_startsIdent (startsIdent_of_ident h)
  · exact opens_cons (startsItem_of_isIdentStart hc) (ne_of_isIdentStart hc (by decide)) t
  · refine ⟨'-', d :: u, rfl, startsItem_of_mem (by decide), fun _ => ⟨d, u, rfl, ?_⟩⟩
    exact isBlank_eq_false_of_startsItem (startsItem_of_isIdentStart hd)

theorem opens_of_isPresent {s : List Char} (h : (number s).isPresent = true) : Opens s := by
  obtain ⟨c, t, rfl, hdigit | rfl⟩ := exists_of_isPresent h
  · refine opens_cons (startsItem_of_isDigit hdigit) ?_ t
    rintro rfl
    contradiction
  · exact opens_cons (startsItem_of_mem (by decide)) (by decide) t

end Lexeme

namespace Cursor

theorem isSolid_skipTrivia (a : Cursor) : Lexeme.IsSolid a.skipTrivia.rest := by
  rw [skipTrivia, rest_skip]
  exact Lexeme.triviaLength_drop .blanks a.rest

theorem skipTrivia_eq_self {a : Cursor} (h : Lexeme.IsSolid a.rest) : a.skipTrivia = a := by
  rw [skipTrivia, h, skip]

theorem size_le {a b : Cursor} (h : a ≤ b) : b.size ≤ a.size := by
  obtain ⟨n, rfl⟩ := h
  exact a.size_skip_le n

theorem size_skip_one_lt {a : Cursor} {x : Char} (h : a.peek? = some x) :
    (a.skip 1).size < a.size :=
  size_skip_lt Nat.one_pos (rest_ne_nil_of_peek? h)

theorem Names.size_lt {name : String} {a b : Cursor} (h : a.Names name b) : b.size < a.size := by
  obtain ⟨hne, _, rfl⟩ := h
  obtain ⟨c, t, hrest, -⟩ := Lexeme.opens_of_ident hne
  exact size_skip_lt (List.length_pos_iff.mpr hne) (by simp [hrest])

theorem Passes.size_lt {x : Char} {a b : Cursor} (h : a.Passes x b) : b.size < a.size := by
  obtain ⟨hpeek, rfl⟩ := h
  exact Nat.lt_of_lt_of_le (size_skip_one_lt hpeek) a.size_skipTrivia_le

theorem opens_of_peek? {a : Cursor} {x : Char} (h : a.peek? = some x)
    (hx : Lexeme.startsItem x = true) (hhyphen : x ≠ '-') : Opens a.rest := by
  rw [rest_of_peek? h]
  exact opens_cons hx hhyphen _

/-- A minus that negates has the start of its operand behind it. -/
theorem exists_of_isNegation {a : Cursor} (h : a.isNegation = true) :
    ∃ d s, a.rest = '-' :: d :: s ∧ (d.isDigit = true ∨ d ∈ ['.', '$', '(']) := by
  obtain ⟨offset, previous, rest⟩ := a
  match rest, h with
  | [], h => contradiction
  | [c], h => simp [isNegation, peekSecond?] at h
  | c :: d :: s, h =>
    simp only [isNegation, peek?, peekSecond?, List.head?_cons, List.getElem?_cons_succ,
      List.getElem?_cons_zero, Option.any_some, Bool.and_eq_true, Bool.or_eq_true,
      List.contains_iff_mem, beq_iff_eq, Option.some.injEq] at h
    obtain ⟨rfl, hd⟩ := h
    exact ⟨d, s, rfl, hd⟩

theorem opens_of_isNegation {a : Cursor} (h : a.isNegation = true) : Opens a.rest := by
  obtain ⟨d, s, hrest, hd⟩ := exists_of_isNegation h
  rw [hrest]
  refine ⟨'-', d :: s, rfl, Lexeme.startsItem_of_mem (by decide), fun _ => ⟨d, s, rfl, ?_⟩⟩
  obtain hdigit | hmark := hd
  · exact Lexeme.isBlank_eq_false_of_startsItem (Lexeme.startsItem_of_isDigit hdigit)
  · have hblank : ['.', '$', '('].all (fun c => !Text.isBlank c) = true := by decide
    simpa using List.all_eq_true.mp hblank d hmark

end Cursor

namespace Expr

open Cursor

theorem IsLeaf.opens {e : Expr} {a b : Cursor} (h : e.IsLeaf a b) : Opens a.rest := by
  cases h with
  | number hpresent _ => exact Lexeme.opens_of_isPresent hpresent
  | string hquote hpeek _ _ =>
    obtain rfl | rfl := hquote
    · exact opens_of_peek? hpeek (Lexeme.startsItem_of_mem (by decide)) (by decide)
    · exact opens_of_peek? hpeek (Lexeme.startsItem_of_mem (by decide)) (by decide)
  | var hpeek _ => exact opens_of_peek? hpeek (Lexeme.startsItem_of_mem (by decide)) (by decide)
  | hash hpeek _ => exact opens_of_peek? hpeek (Lexeme.startsItem_of_mem (by decide)) (by decide)
  | word hname => exact Lexeme.opens_of_ident hname.1

theorem IsLeaf.size_lt {e : Expr} {a b : Cursor} (h : e.IsLeaf a b) : b.size < a.size := by
  cases h with
  | number hpresent hb =>
    obtain ⟨c, t, hrest, -⟩ := Lexeme.exists_of_isPresent hpresent
    rw [hb]
    exact size_skip_lt (Lexeme.Number.length_pos hpresent) (by simp [hrest])
  | string _ hpeek _ hb =>
    rw [hb]
    exact size_skip_lt (Nat.add_pos_left Nat.one_pos _) (rest_ne_nil_of_peek? hpeek)
  | var _ hname => exact Nat.lt_of_lt_of_le hname.size_lt (a.size_skip_le 1)
  | hash hpeek hb =>
    rw [hb]
    exact size_skip_lt (Nat.add_pos_left Nat.one_pos _) (rest_ne_nil_of_peek? hpeek)
  | word hname => exact hname.size_lt

/-- The text of an expression starts like an item of a list. -/
theorem Stands.opens {level : Level} {e : Expr} {a b : Cursor} (h : e.Stands level a b) :
    Opens a.rest := by
  induction h using Stands.induct with
  | leaf e a b h => exact h.opens
  | group e a b c hopen =>
    exact opens_of_peek? hopen (Lexeme.startsItem_of_mem (by decide)) (by decide)
  | negate e a b hsign => exact opens_of_isNegation hsign
  | primary e a b hsign h ih => exact ih
  | factor e a b h ih => exact ih
  | product e a b h ih => exact ih
  | sum e a b h ih => exact ih
  | multiply left right a b c operator hleft ho hright ihleft => exact ihleft
  | add left right a b c operator hleft ho hright ihleft => exact ihleft
  | list first second more a b c hfirst hmore ih => exact ih

theorem Stands.isSolid {level : Level} {e : Expr} {a b : Cursor} (h : e.Stands level a b) :
    Lexeme.IsSolid a.rest :=
  h.opens.isSolid

/-- An expression takes up some text. -/
theorem Stands.size_lt {level : Level} {e : Expr} {a b : Cursor} (h : e.Stands level a b) :
    b.size < a.size := by
  induction h using Stands.induct with
  | leaf e a b h => exact h.size_lt
  | group e a b c hopen h hclose ih =>
    exact Nat.lt_trans hclose.size_lt (Nat.lt_of_lt_of_le ih (Nat.le_trans
      (Cursor.size_skipTrivia_le _) (a.size_skip_le 1)))
  | negate e a b hsign h ih =>
    exact Nat.lt_of_lt_of_le ih (Nat.le_trans (Cursor.size_skipTrivia_le _) (a.size_skip_le 1))
  | primary e a b hsign h ih => exact ih
  | factor e a b h ih => exact ih
  | product e a b h ih => exact ih
  | sum e a b h ih => exact ih
  | multiply left right a b c operator hleft ho hright ihleft ihright =>
    exact Nat.lt_of_le_of_lt
      (Cursor.size_le (le_trans (Cursor.le_behind_operator b) hright.le)) ihleft
  | add left right a b c operator hleft ho hright ihleft ihright =>
    exact Nat.lt_of_le_of_lt
      (Cursor.size_le (le_trans (Cursor.le_behind_operator b) hright.le)) ihleft
  | list first second more a b c hfirst hmore ih =>
    exact Nat.lt_of_le_of_lt (Cursor.size_le hmore.le) ih

/-- A primary expression is no negation, even if it is a word that starts with a hyphen. -/
theorem Stands.isNegation_eq_false {e : Expr} {a b : Cursor} :
    e.Stands .primary a b → a.isNegation = false
  | .leaf h => by
    rw [Bool.eq_false_iff]
    intro hsign
    obtain ⟨d, s, hrest, hd⟩ := exists_of_isNegation hsign
    cases h with
    | number hpresent _ =>
      obtain ⟨c, t, hstart, hc⟩ := Lexeme.exists_of_isPresent hpresent
      obtain rfl := (List.cons.inj (hrest.symm.trans hstart)).1
      revert hc
      decide
    | string hquote hpeek _ _ =>
      simp only [peek?, hrest, List.head?_cons, Option.some.injEq] at hpeek
      subst hpeek
      revert hquote
      decide
    | var hpeek _ | hash hpeek _ => simp [peek?, hrest] at hpeek
    | word hname =>
      have hstarts := Lexeme.startsIdent_of_ident hname.1
      rw [hrest] at hstarts
      have hstart : Lexeme.isIdentStart d = true := hstarts
      obtain hdigit | hmark := hd
      · rw [Lexeme.isDigit_eq_false_of_isIdentStart hstart] at hdigit
        contradiction
      · exact Lexeme.not_mem_of_isIdentStart hstart (by decide) hmark
  | .group hopen _ _ => by simp [isNegation, hopen]

end Expr

end Stylesheet
