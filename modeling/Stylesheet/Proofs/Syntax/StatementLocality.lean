import Stylesheet.Proofs.Syntax.Completeness
import Stylesheet.Proofs.Syntax.ExpressionLocality

/-!
# Statements in front of a seam

A statement that stands in the front part of a text stands there as well if the rest of the text is
another one (`Statement.Stands.twins`). What decides between a declaration and a rule is the first
mark, and the mark that ends a statement is in front of the seam, even if the parser looks further.
-/

namespace Stylesheet

namespace Lexeme

variable {u : List Char} {x : Char}

/-- The first mark of a text stands in front of the end of any part that has one. -/
theorem length_head_lt (hx : isStatementMark x = true) (hmem : x ∈ u) (t : List Char) :
    (head (u ++ t)).length < u.length := by
  obtain ⟨s, v, rfl⟩ := List.append_of_mem hmem
  have hle : (head (s ++ x :: (v ++ t))).length ≤ s.length := by
    rw [head, List.takeWhile_append]
    split
    · simp [hx]
    · exact (List.takeWhile_prefix _).length_le
  rw [List.append_assoc, List.cons_append, List.length_append, List.length_cons]
  omega

end Lexeme

namespace Cursor

variable {near near' : List Char} {a a' b c d : Cursor} {x : Char} {keyword name selector : String}
  {value : Expr}

/-! ## How much text a statement takes -/

theorem AtRule.size_lt (h : a.AtRule keyword b) : b.size + 1 < a.size :=
  Nat.lt_of_le_of_lt h.2.size_lt (size_skip_one_lt h.1)

theorem OpensRule.size_lt (h : a.OpensRule selector b) : b.size < a.size := by
  obtain ⟨hpeek, -, -, rfl⟩ := h
  exact Nat.lt_of_lt_of_le (size_skip_one_lt hpeek) (a.size_skip_le _)

/-- A declaration ends behind a mark, or in front of one. -/
theorem EndsDeclaration.exists_mark (h : a.EndsDeclaration b)
    (hle : near.length ≤ b.size) (hbrace : b.peek? = some '\x7d' → near.length < b.size) :
    ∃ x, Lexeme.isStatementMark x = true ∧ a.skipTrivia.peek? = some x ∧ x ≠ '/' ∧
      near.length < a.skipTrivia.size := by
  obtain ⟨hpeek, rfl⟩ | ⟨hpeek, rfl⟩ := h
  · exact ⟨_, by decide, hpeek, by decide, hbrace hpeek⟩
  · exact ⟨_, by decide, hpeek, by decide, Nat.lt_of_le_of_lt hle (size_skip_one_lt hpeek)⟩

namespace Twins

theorem atRule (h : Twins near near' a a') (hat : a.AtRule keyword b)
    (hle : near.length ≤ b.size) : ∃ b', a'.AtRule keyword b' ∧ Twins near near' b b' := by
  have hlt := hat.size_lt
  obtain ⟨hpeek, hname⟩ := hat
  obtain ⟨b', hname', hb⟩ := (h.skip (k := 1) (by omega)).names hname hle
  exact ⟨b', ⟨(h.peek? (by omega)).trans hpeek, hname'⟩, hb⟩

/-- A name behind blanks and comments. -/
theorem names_behind (h : Twins near near' a a') (hname : a.skipTrivia.Names name b)
    (hle : near.length ≤ b.size) :
    ∃ b', a'.skipTrivia.Names name b' ∧ Twins near near' b b' := by
  have hlt := Nat.lt_of_le_of_lt hle hname.size_lt
  exact (h.skipTrivia_of_opens hlt (Lexeme.opens_of_ident hname.1)).names hname hle

/-- An expression behind blanks and comments. -/
theorem stands_behind (h : Twins near near' a a') (hvalue : value.Stands .list a.skipTrivia b)
    (hle : near.length ≤ b.size) :
    ∃ b', value.Stands .list a'.skipTrivia b' ∧ Twins near near' b b' := by
  have hlt := Nat.lt_of_le_of_lt hle hvalue.size_lt
  exact hvalue.twins (h.skipTrivia_of_opens hlt hvalue.opens) hle

/-- A keyword and the value behind it. -/
theorem message (h : Twins near near' a a') (hat : a.AtRule keyword b)
    (hvalue : value.Stands .list b.skipTrivia c) (hle : near.length ≤ c.size) :
    ∃ b' c', a'.AtRule keyword b' ∧ value.Stands .list b'.skipTrivia c' ∧
      Twins near near' c c' := by
  have hb := Nat.le_trans hle (size_le (le_trans (le_skipTrivia _) hvalue.le))
  obtain ⟨b', hat', htwins⟩ := h.atRule hat hb
  obtain ⟨c', hvalue', hc⟩ := htwins.stands_behind hvalue hle
  exact ⟨b', c', hat', hvalue', hc⟩

/-- A name, a colon and the value behind it. -/
theorem named_value (h : Twins near near' a a') (hname : a.Names name b)
    (hcolon : b.Passes ':' c) (hvalue : value.Stands .list c.skipTrivia d)
    (hle : near.length ≤ d.size) : ∃ b' c' d', a'.Names name b' ∧ b'.Passes ':' c' ∧
      value.Stands .list c'.skipTrivia d' ∧ Twins near near' d d' := by
  have hc := Nat.le_trans hle (size_le (le_trans (le_skipTrivia _) hvalue.le))
  have hb := Nat.le_trans hc (size_le hcolon.le)
  obtain ⟨b', hname', htwins⟩ := h.names hname hb
  obtain ⟨c', hcolon', htwins⟩ := htwins.passes hcolon (by decide) hc
  obtain ⟨d', hvalue', hd⟩ := htwins.stands_behind hvalue hle
  exact ⟨b', c', d', hname', hcolon', hvalue', hd⟩

/-- The first mark is the same for both if there is one in front of the seam. -/
theorem head_lt (h : Twins near near' a a') (hle : a ≤ b) (hpeek : b.peek? = some x)
    (hx : Lexeme.isStatementMark x = true) (hlt : near.length < b.size) :
    ∃ u, a.rest = u ++ near ∧ a'.rest = u ++ near' ∧
      (Lexeme.head (u ++ near)).length < u.length := by
  obtain ⟨u, hrest, hrest', -⟩ := h.rest
  obtain ⟨text, hbetween, -⟩ := exists_between hle
  rw [rest_of_peek? hpeek] at hbetween
  have hlength : text.length < u.length := by
    have htotal := congrArg List.length (hrest.symm.trans hbetween)
    rw [size, rest_of_peek? hpeek] at hlt
    simp only [List.length_append, List.length_cons] at htotal hlt
    omega
  have hfront : text ++ [x] <+: u :=
    List.prefix_of_prefix_length_le ⟨(b.skip 1).rest, by rw [hbetween]; simp⟩ ⟨near, hrest.symm⟩
      (by rwa [List.length_append])
  exact ⟨u, hrest, hrest', Lexeme.length_head_lt hx (hfront.mem (by simp)) near⟩

theorem looksLikeDeclaration (h : Twins near near' a a') (hle : a ≤ b) (hpeek : b.peek? = some x)
    (hx : Lexeme.isStatementMark x = true) (hlt : near.length < b.size) :
    Lexeme.looksLikeDeclaration a'.rest = Lexeme.looksLikeDeclaration a.rest := by
  obtain ⟨u, hrest, hrest', hhead⟩ := h.head_lt hle hpeek hx hlt
  rw [hrest, hrest', Lexeme.looksLikeDeclaration_congr hhead]

theorem opensRule (h : Twins near near' a a') (hopen : a.OpensRule selector b)
    (hle : near.length ≤ b.size) : ∃ b', a'.OpensRule selector b' ∧ Twins near near' b b' := by
  obtain ⟨hpeek, hselector, rfl, rfl⟩ := hopen
  have hlt := Nat.lt_of_le_of_lt hle (size_skip_one_lt hpeek)
  obtain ⟨u, hrest, hrest', hhead⟩ := h.head_lt (a.le_skip _) hpeek (by decide) hlt
  have hcongr : Lexeme.head a'.rest = Lexeme.head a.rest := by
    rw [hrest, hrest', Lexeme.head_congr hhead]
  have hbrace := h.skip_of_le (k := (Lexeme.head a.rest).length)
    (List.takeWhile_prefix _).length_le (Nat.le_of_lt hlt)
  refine ⟨_, ⟨?_, ?_, ?_, rfl⟩, ?_⟩
  · rw [hcongr]
    exact (hbrace.peek? hlt).trans hpeek
  · rwa [hcongr]
  · rw [hcongr]
  · rw [hcongr]
    exact hbrace.skip hlt

theorem looksLikeDeclaration_of_opensRule (h : Twins near near' a a')
    (hopen : a.OpensRule selector b) (hle : near.length ≤ b.size) :
    Lexeme.looksLikeDeclaration a'.rest = Lexeme.looksLikeDeclaration a.rest := by
  obtain ⟨hpeek, -, -, rfl⟩ := hopen
  have hlt := Nat.lt_of_le_of_lt hle (size_skip_one_lt hpeek)
  exact h.looksLikeDeclaration (a.le_skip _) hpeek (by decide) hlt

theorem endsDeclaration (h : Twins near near' a a') (hend : a.EndsDeclaration b)
    (hle : near.length ≤ b.size) (hlt : near.length < a.skipTrivia.size)
    (hx : a.skipTrivia.peek? = some x) (hslash : x ≠ '/') :
    ∃ b', a'.EndsDeclaration b' ∧ Twins near near' b b' := by
  have htrivia := h.skipTrivia_of_peek? hlt (by simpa [hx] using hslash)
  obtain ⟨hpeek, rfl⟩ | hpasses := hend
  · exact ⟨a'.skipTrivia, .inl ⟨(htrivia.peek? hlt).trans hpeek, rfl⟩, htrivia⟩
  · obtain ⟨b', hpasses', hb⟩ := h.passes hpasses (by decide) hle
    exact ⟨b', .inr hpasses', hb⟩

end Twins

end Cursor

namespace Statement

open Cursor (Twins)

variable {near near' : List Char}

theorem Stands.size_lt {isBlock : Bool} {s : Statement} {a b : Cursor} (h : s.Stands isBlock a b) :
    b.size + 1 < a.size := by
  cases h with
  | assign hpeek hname hcolon hvalue hend =>
    have hsign := Cursor.size_skip_one_lt hpeek
    have hname := hname.size_lt
    have hcolon := hcolon.size_lt
    have hvalue := Nat.lt_of_lt_of_le hvalue.size_lt (Cursor.size_skipTrivia_le _)
    have hend := hend.size_lt
    omega
  | warn hat hvalue hend | debug hat hvalue hend =>
    have hat := hat.size_lt
    have hvalue := Nat.lt_of_lt_of_le hvalue.size_lt (Cursor.size_skipTrivia_le _)
    have hend := hend.size_lt
    omega
  | defineMixin hat hname hopen hbody hclose =>
    have hat := hat.size_lt
    have hname := Nat.lt_of_lt_of_le hname.size_lt (Cursor.size_skipTrivia_le _)
    have hopen := hopen.size_lt
    have hbody := Cursor.size_le hbody.le
    have hclose := hclose.size_lt
    omega
  | includeMixin hat hname hend =>
    have hat := hat.size_lt
    have hname := Nat.lt_of_lt_of_le hname.size_lt (Cursor.size_skipTrivia_le _)
    have hend := hend.size_lt
    omega
  | declaration _ hname hcolon hvalue hend =>
    have hname := hname.size_lt
    have hcolon := hcolon.size_lt
    have hvalue := Nat.lt_of_lt_of_le hvalue.size_lt (Cursor.size_skipTrivia_le _)
    have hend := Cursor.size_le hend.le
    omega
  | rule _ _ _ hopen hbody hclose =>
    have hopen := hopen.size_lt
    have hbody := Cursor.size_le hbody.le
    have hclose := hclose.size_lt
    omega

mutual

/-- A statement in front of a seam stands there whatever stands behind the seam. The end of a block,
which a declaration may end at, has to stand in front of the seam as well. -/
theorem Stands.twins {isBlock : Bool} {s : Statement} {a a' b : Cursor}
    (htwins : Twins near near' a a') (hle : near.length ≤ b.size)
    (hbrace : isBlock = true → b.peek? = some '\x7d' → near.length < b.size) :
    s.Stands isBlock a b → ∃ b', s.Stands isBlock a' b' ∧ Twins near near' b b'
  | .assign hpeek hname hcolon hvalue hend => by
    have hsize := Stands.size_lt (.assign hpeek hname hcolon hvalue hend : Stands isBlock _ a b)
    have hsign : near.length < a.size := by omega
    have hd := Nat.le_trans hle (Cursor.size_le hend.le)
    obtain ⟨b', c', d', hname', hcolon', hvalue', hd'⟩ :=
      (htwins.skip hsign).named_value hname hcolon hvalue hd
    obtain ⟨e', hend', he'⟩ := hd'.passes hend (by decide) hle
    have hassign : Stands isBlock _ a' e' :=
      .assign ((htwins.peek? hsign).trans hpeek) hname' hcolon' hvalue' hend'
    rw [htwins.rangeTo_eq hd'] at hassign
    exact ⟨e', hassign, he'⟩
  | .warn hat hvalue hend => by
    obtain ⟨b', c', hat', hvalue', hc'⟩ :=
      htwins.message hat hvalue (Nat.le_trans hle (Cursor.size_le hend.le))
    obtain ⟨d', hend', hd'⟩ := hc'.passes hend (by decide) hle
    have hwarn : Stands isBlock _ a' d' := .warn hat' hvalue' hend'
    rw [htwins.rangeTo_eq hc'] at hwarn
    exact ⟨d', hwarn, hd'⟩
  | .debug hat hvalue hend => by
    obtain ⟨b', c', hat', hvalue', hc'⟩ :=
      htwins.message hat hvalue (Nat.le_trans hle (Cursor.size_le hend.le))
    obtain ⟨d', hend', hd'⟩ := hc'.passes hend (by decide) hle
    have hdebug : Stands isBlock _ a' d' := .debug hat' hvalue' hend'
    rw [htwins.rangeTo_eq hc'] at hdebug
    exact ⟨d', hdebug, hd'⟩
  | .defineMixin hat hname hopen hbody hclose => by
    have he := Nat.lt_of_le_of_lt hle hclose.size_lt
    have hd := Nat.le_trans (Nat.le_of_lt he) (Cursor.size_le hbody.le)
    have hc := Nat.le_trans hd (Cursor.size_le hopen.le)
    have hb := Nat.le_trans hc (Cursor.size_le (le_trans (Cursor.le_skipTrivia _) hname.le))
    obtain ⟨b', hat', hb'⟩ := htwins.atRule hat hb
    obtain ⟨c', hname', hc'⟩ := hb'.names_behind hname hc
    obtain ⟨d', hopen', hd'⟩ := hc'.passes hopen (by decide) hd
    obtain ⟨e', hbody', he'⟩ := hbody.twins hd' he
    obtain ⟨f', hclose', hf'⟩ := he'.passes hclose (by decide) hle
    have hmixin : Stands isBlock _ a' f' := .defineMixin hat' hname' hopen' hbody' hclose'
    rw [htwins.rangeTo_eq hf'] at hmixin
    exact ⟨f', hmixin, hf'⟩
  | .includeMixin hat hname hend => by
    have hc := Nat.le_trans hle (Cursor.size_le hend.le)
    have hb := Nat.le_trans hc (Cursor.size_le (le_trans (Cursor.le_skipTrivia _) hname.le))
    obtain ⟨b', hat', hb'⟩ := htwins.atRule hat hb
    obtain ⟨c', hname', hc'⟩ := hb'.names_behind hname hc
    obtain ⟨d', hend', hd'⟩ := hc'.passes hend (by decide) hle
    have hinclude : Stands isBlock _ a' d' := .includeMixin hat' hname' hend'
    rw [htwins.rangeTo_eq hc'] at hinclude
    exact ⟨d', hinclude, hd'⟩
  | .declaration hlook hname hcolon hvalue hend => by
    obtain ⟨x, hmark, hpeek, hslash, hlt⟩ := hend.exists_mark hle (hbrace rfl)
    obtain ⟨b', c', d', hname', hcolon', hvalue', hd'⟩ :=
      htwins.named_value hname hcolon hvalue (Nat.le_trans hle (Cursor.size_le hend.le))
    obtain ⟨e', hend', he'⟩ := hd'.endsDeclaration hend hle hlt hpeek hslash
    have hbehind := le_trans hname.le (le_trans hcolon.le
      (le_trans (Cursor.le_skipTrivia _) (le_trans hvalue.le (Cursor.le_skipTrivia _))))
    have hlook' := (htwins.looksLikeDeclaration hbehind hpeek hmark hlt).trans hlook
    have hdeclaration := Stands.declaration hlook' hname' hcolon' hvalue' hend'
    rw [htwins.rangeTo_eq hd'] at hdeclaration
    exact ⟨e', hdeclaration, he'⟩
  | .rule hsign hat hlook hopen hbody hclose => by
    have hc := Nat.lt_of_le_of_lt hle hclose.size_lt
    have hb := Nat.le_trans (Nat.le_of_lt hc) (Cursor.size_le hbody.le)
    have hpeek := htwins.peek? (Nat.lt_of_le_of_lt hb hopen.size_lt)
    obtain ⟨b', hopen', hb'⟩ := htwins.opensRule hopen hb
    obtain ⟨c', hbody', hc'⟩ := hbody.twins hb' hc
    obtain ⟨d', hclose', hd'⟩ := hc'.passes hclose (by decide) hle
    have hlook' := congrArg (isBlock && ·) (htwins.looksLikeDeclaration_of_opensRule hopen hb)
    have hrule := Stands.rule (hpeek ▸ hsign) (hpeek ▸ hat) (hlook'.trans hlook) hopen' hbody'
      hclose'
    rw [htwins.rangeTo_eq hd'] at hrule
    exact ⟨d', hrule, hd'⟩

theorem StandAll.twins {isBlock : Bool} {statements : List Statement} {a a' b : Cursor}
    (htwins : Twins near near' a a') (hlt : near.length < b.size) :
    StandAll isBlock statements a b →
      ∃ b', StandAll isBlock statements a' b' ∧ Twins near near' b b'
  | .nil hend => by
    have hslash : a.skipTrivia.peek? ≠ some '/' := by
      obtain hend | hend := hend <;> simp [hend]
    have htrivia := htwins.skipTrivia_of_peek? hlt hslash
    exact ⟨a'.skipTrivia, .nil (by rwa [htrivia.peek? hlt]), htrivia⟩
  | .cons hmore hfirst hrest => by
    have hnext := Nat.lt_of_lt_of_le hlt (Cursor.size_le hrest.le)
    have hsize := hfirst.size_lt
    have htrivia := htwins.skipTrivia (by omega) fun _ => by omega
    obtain ⟨b', hfirst', hb'⟩ := hfirst.twins htrivia (Nat.le_of_lt hnext) fun _ _ => hnext
    obtain ⟨c', hrest', hc'⟩ := hrest.twins hb' hlt
    exact ⟨c', .cons (by rwa [htrivia.peek? (by omega)]) hfirst' hrest', hc'⟩

end

end Statement

end Stylesheet
