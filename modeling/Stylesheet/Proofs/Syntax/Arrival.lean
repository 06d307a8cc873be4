import Stylesheet.Proofs.Syntax.ExpressionShifting
import Stylesheet.Proofs.Syntax.StatementLocality

/-!
# What a cursor has passed

Expressions and statements stand at a place of a text, however a cursor got there. Only a minus
between two of them is looked at together with the character in front of it.
-/

namespace Stylesheet

namespace Cursor

variable {a a' b : Cursor} {x : Char} {keyword name selector : String}

theorem Meets.skip_eq (h : Meets 0 a a') {k : Nat} (hk : 0 < k) (hne : a.rest ≠ []) :
    a'.skip k = a.skip k :=
  h.skip_of_pos hk hne

theorem Meets.skip_one_eq (h : Meets 0 a a') (hpeek : a.peek? = some x) : a'.skip 1 = a.skip 1 :=
  h.skip_eq Nat.one_pos (rest_ne_nil_of_peek? hpeek)

theorem Meets.rangeTo_eq (h : Meets 0 a a') (b : Cursor) : a'.rangeTo b = a.rangeTo b := by
  rw [rangeTo, rangeTo, h.offset, Nat.add_zero]

theorem Meets.multiplicative? (h : Meets 0 a a') : a'.multiplicative? = a.multiplicative? := by
  rw [Cursor.multiplicative?, Cursor.multiplicative?, h.peek?]

theorem Names.meets (h : a.Names name b) (hmeets : Meets 0 a a') : a'.Names name b := by
  obtain ⟨hne, hname, rfl⟩ := h
  obtain ⟨c, t, hrest, -⟩ := Lexeme.opens_of_ident hne
  have hskip := hmeets.skip_eq (List.length_pos_iff.mpr hne) (by simp [hrest])
  rw [← hmeets.rest] at hne hname hskip
  exact ⟨hne, hname, by rw [hskip, hmeets.rest]⟩

theorem Passes.meets (h : a.Passes x b) (hmeets : Meets 0 a.skipTrivia a'.skipTrivia) :
    a'.Passes x b := by
  obtain ⟨hpeek, rfl⟩ := h
  exact ⟨hmeets.peek?.trans hpeek, (hmeets.skip_one_eq hpeek).symm⟩

theorem AtRule.meets (h : a.AtRule keyword b) (hmeets : Meets 0 a a') : a'.AtRule keyword b := by
  obtain ⟨hpeek, hname⟩ := h
  exact ⟨hmeets.peek?.trans hpeek, by rwa [hmeets.skip_one_eq hpeek]⟩

theorem OpensRule.meets (h : a.OpensRule selector b) (hmeets : Meets 0 a a') :
    a'.OpensRule selector b := by
  obtain ⟨hpeek, hselector, hname, rfl⟩ := h
  have hbrace := hmeets.skip (Lexeme.head a.rest).length
  have hskip := hbrace.skip_one_eq hpeek
  rw [← hmeets.rest] at hpeek hselector hname hbrace hskip
  refine ⟨hbrace.peek?.trans hpeek, hselector, hname, ?_⟩
  rw [hskip, hmeets.rest]

theorem EndsDeclaration.meets (h : a.EndsDeclaration b)
    (hmeets : Meets 0 a.skipTrivia a'.skipTrivia) :
    ∃ b', a'.EndsDeclaration b' ∧ Meets 0 b b' := by
  obtain ⟨hpeek, rfl⟩ | hpasses := h
  · exact ⟨_, .inl ⟨hmeets.peek?.trans hpeek, rfl⟩, hmeets⟩
  · exact ⟨b, .inr (hpasses.meets hmeets), rfl, rfl⟩

end Cursor

open Cursor (Meets)

namespace Expr

theorem IsLeaf.meets {e : Expr} {a a' b : Cursor} (h : e.IsLeaf a b) (hmeets : Meets 0 a a') :
    e.IsLeaf a' b := by
  have hrange := hmeets.rangeTo_eq b
  cases h with
  | number hpresent hb =>
    obtain ⟨c, t, hrest, -⟩ := Lexeme.exists_of_isPresent hpresent
    have hskip := hmeets.skip_eq (Lexeme.Number.length_pos hpresent) (by simp [hrest])
    rw [← hmeets.rest] at hpresent hskip hb ⊢
    rw [← hrange]
    exact .number hpresent (by rw [hb, hskip])
  | @string _ _ _ _ length hquote hpeek hstring hb =>
    have hskip := hmeets.skip_eq (k := 1 + length) (Nat.add_pos_left Nat.one_pos _)
      (Cursor.rest_ne_nil_of_peek? hpeek)
    rw [← hmeets.rest] at hstring
    rw [← hrange]
    exact .string hquote (hmeets.peek?.trans hpeek) hstring (hb.trans hskip.symm)
  | var hpeek hname =>
    rw [← hrange]
    exact .var (hmeets.peek?.trans hpeek) (by rwa [hmeets.skip_one_eq hpeek])
  | hash hpeek hb =>
    have hskip := hmeets.skip_eq (k := Lexeme.hashLength a.rest) (Nat.add_pos_left Nat.one_pos _)
      (Cursor.rest_ne_nil_of_peek? hpeek)
    rw [← hmeets.rest] at hskip hb ⊢
    rw [← hrange]
    exact .hash (hmeets.peek?.trans hpeek) (hb.trans hskip.symm)
  | word hname =>
    rw [← hrange]
    exact .word (hname.meets hmeets)

/-- An expression stands at a place whatever a cursor there has passed. -/
theorem Stands.meets {level : Level} {e : Expr} {a a' b : Cursor} (h : e.Stands level a b)
    (hmeets : Meets 0 a a') : e.Stands level a' b := by
  have hrange := hmeets.rangeTo_eq
  induction h using Stands.induct with
  | leaf e a b h => exact .leaf (h.meets hmeets)
  | group e a b c hopen h hclose =>
    rw [← hrange]
    rw [← hmeets.skip_one_eq hopen] at h
    exact .group (hmeets.peek?.trans hopen) h hclose
  | negate e a b hsign h =>
    obtain ⟨d, s, hrest, -⟩ := Cursor.exists_of_isNegation hsign
    rw [← hrange]
    rw [← hmeets.skip_eq Nat.one_pos (by simp [hrest])] at h
    exact .negate (hmeets.isNegation.trans hsign) h
  | primary e a b hsign h ih => exact .primary (hmeets.isNegation.trans hsign) (ih hmeets hrange)
  | factor e a b h ih => exact .factor (ih hmeets hrange)
  | product e a b h ih => exact .product (ih hmeets hrange)
  | sum e a b h ih => exact .sum (ih hmeets hrange)
  | multiply left right a b c operator hleft ho hright ih =>
    rw [← hrange]
    exact .multiply (ih hmeets hrange) ho hright
  | add left right a b c operator hleft ho hright ih =>
    rw [← hrange]
    exact .add (ih hmeets hrange) ho hright
  | list first second more a b c hfirst hmore ih =>
    rw [← hrange]
    exact .list (ih hmeets hrange) hmore

end Expr

namespace Statement

/-- A statement stands at a place whatever a cursor there has passed. -/
theorem Stands.meets {isBlock : Bool} {s : Statement} {a a' b : Cursor} (h : s.Stands isBlock a b)
    (hmeets : Meets 0 a a') : s.Stands isBlock a' b := by
  have hrange := hmeets.rangeTo_eq
  cases h with
  | assign hpeek hname hcolon hvalue hend =>
    rw [← hrange]
    rw [← hmeets.skip_one_eq hpeek] at hname
    exact .assign (hmeets.peek?.trans hpeek) hname hcolon hvalue hend
  | warn hat hvalue hend =>
    rw [← hrange]
    exact .warn (hat.meets hmeets) hvalue hend
  | debug hat hvalue hend =>
    rw [← hrange]
    exact .debug (hat.meets hmeets) hvalue hend
  | defineMixin hat hname hopen hbody hclose =>
    rw [← hrange]
    exact .defineMixin (hat.meets hmeets) hname hopen hbody hclose
  | includeMixin hat hname hend =>
    rw [← hrange]
    exact .includeMixin (hat.meets hmeets) hname hend
  | declaration hlook hname hcolon hvalue hend =>
    rw [← hrange]
    rw [← hmeets.rest] at hlook
    exact .declaration hlook (hname.meets hmeets) hcolon hvalue hend
  | rule hsign hat hlook hopen hbody hclose =>
    rw [← hrange]
    rw [← hmeets.peek?] at hsign hat
    rw [← hmeets.rest] at hlook
    exact .rule hsign hat hlook (hopen.meets hmeets) hbody hclose

/-- Statements that are come to at the same place end at the same place. -/
theorem StandAll.meets {isBlock : Bool} {statements : List Statement} {a a' b : Cursor}
    (h : StandAll isBlock statements a b) (hmeets : Meets 0 a.skipTrivia a'.skipTrivia) :
    ∃ b', StandAll isBlock statements a' b' ∧ Meets 0 b b' := by
  cases h with
  | nil hend =>
    rw [← hmeets.peek?] at hend
    exact ⟨_, .nil hend, hmeets⟩
  | cons hmore hfirst hrest =>
    rw [← hmeets.peek?] at hmore
    exact ⟨b, .cons hmore (hfirst.meets hmeets) hrest, rfl, rfl⟩

end Statement

end Stylesheet
