import Stylesheet.Proofs.Syntax.Groups

/-!
# The text of a reference

A reference to a variable covers the dollar sign and the name, wherever it stands in an expression,
and all the parentheses around it that hold nothing else (`reference_text`).
-/

namespace Stylesheet

open Lexeme (IsTrivia)

/-- The text of a reference to a variable: the name behind a dollar sign, or a reference in
parentheses, in which there may be blanks and comments around it. -/
inductive IsReference (name : String) : List Char → Prop where
  | bare : IsReference name ('$' :: name.toList)
  | group {lead text trail : List Char} (hlead : IsTrivia lead) (h : IsReference name text)
      (htrail : IsTrivia trail) :
      IsReference name ('(' :: (lead ++ (text ++ (trail ++ [')']))))

/-- Whether an expression of the statements of a text passes blanks and comments at a cursor. -/
def Statement.IsInnerGap (source : String) (statements : List Statement) (gap : Cursor) : Prop :=
  ∃ s ∈ nodesIn statements, ∃ value a b gaps, s.value? = some value ∧
    Cursor.start source.toList ≤ a ∧ value.Traced .list a b gaps ∧ gap ∈ gaps

/-- Whether a part of a text that goes up to a rest of it stands in parentheses of an expression,
with nothing but blanks and comments around it. Behind a parenthesis in a string or a comment no
blanks are passed, so such a one does not count. -/
def Statement.IsParenthesized (source : String) (statements : List Statement)
    (text rest : List Char) : Prop :=
  ∃ gap lead trail behind, IsInnerGap source statements gap ∧ gap.previous = some '(' ∧
    gap.rest = lead ++ (text ++ rest) ∧ IsTrivia lead ∧ rest = trail ++ ')' :: behind ∧
    IsTrivia trail

/-! ## Cursors in a text -/

namespace Cursor

variable {a b c : Cursor} {s : List Char}

/-- The blanks and comments in front of what stands behind them. -/
theorem exists_lead (h : a.skipTrivia.rest ≠ []) :
    ∃ lead, IsTrivia lead ∧ a.rest = lead ++ a.skipTrivia.rest := by
  obtain ⟨lead, rest, hrest, hlead, hsolid⟩ | hends := Lexeme.exists_trivia a.rest
  · refine ⟨lead, hlead, ?_⟩
    rw [skipTrivia_of_isTrivia hrest hlead hsolid, rest_skip, hrest, List.drop_left]
  · refine absurd ?_ h
    rw [skipTrivia, rest_skip, hends.triviaLength_eq, List.drop_length]

theorem Passes.exists_trail {x : Char} (h : a.Passes x b) :
    ∃ trail, IsTrivia trail ∧ a.rest = trail ++ x :: b.rest := by
  obtain ⟨hpeek, rfl⟩ := h
  have hrest := rest_of_peek? hpeek
  obtain ⟨trail, htrail, hparts⟩ := exists_lead (a := a) (by rw [hrest]; exact List.cons_ne_nil _ _)
  exact ⟨trail, htrail, by rw [← hrest]; exact hparts⟩

theorem passes_of_trail {trail rest : List Char} {x : Char} (hrest : a.rest = trail ++ x :: rest)
    (htrail : IsTrivia trail) (hsolid : Lexeme.IsSolid (x :: rest)) :
    ∃ c, a.Passes x c := by
  refine ⟨_, ?_, rfl⟩
  rw [skipTrivia_of_isTrivia hrest htrail hsolid, peek?, rest_skip, hrest, List.drop_left]
  rfl

/-- There is one cursor in front of each rest of a text. -/
theorem eq_of_rest_eq (ha : start s ≤ a) (hb : start s ≤ b) (h : a.rest = b.rest) : a = b := by
  obtain ⟨front, hfront, hoffset, hprevious⟩ := exists_passed ha
  obtain ⟨front', hfront', hoffset', hprevious'⟩ := exists_passed hb
  obtain rfl : front = front' := by
    rw [hfront, h] at hfront'
    exact List.append_cancel_right hfront'
  obtain ⟨offset, previous, rest⟩ := a
  obtain ⟨offset', previous', rest'⟩ := b
  simp_all

/-- The cut that a text up to another cursor makes. -/
theorem exists_cut {source : String} {text : List Char} (ha : start source.toList ≤ a) (hab : a ≤ b)
    (hrest : a.rest = text ++ b.rest) : ∃ front, (a.rangeTo b).Cuts source front text b.rest := by
  obtain ⟨front, hfront, hstart⟩ := exists_front ha
  obtain ⟨text', hrest', hstop⟩ := exists_between hab
  obtain rfl : text' = text := List.append_cancel_right (hrest'.symm.trans hrest)
  refine ⟨front, by rw [hfront, hrest, List.append_assoc], hstart, ?_⟩
  rw [rangeTo, hstop, hstart, Text.byteLength_append]

theorem offset_lt (h : a < b) : a.offset < b.offset := by
  obtain ⟨text, hrest, hoffset⟩ := exists_between h.le
  have hsize := size_lt_of_lt h
  cases text with
  | nil => simp [size, hrest] at hsize
  | cons x text =>
    have hpos := x.utf8Size_pos
    rw [hoffset, Text.byteLength_cons]
    omega

end Cursor

/-! ## References -/

namespace Expr

theorem eq_var_of_withRange {e : Expr} {range range' : Range} {name : String}
    (h : e.withRange range = .var range' name) : e = .var e.range name := by
  cases e <;> simp_all [withRange, Expr.range]

/-- What is read as a reference is the text of one. -/
theorem Stands.isReference {level : Level} {e : Expr} {a b : Cursor} (h : e.Stands level a b)
    {range : Range} {name : String} (hvar : e = .var range name) :
    ∃ text, a.rest = text ++ b.rest ∧ IsReference name text := by
  induction h using Stands.induct generalizing range with
  | leaf e a b h =>
    subst hvar
    cases h with
    | var hpeek hname =>
      refine ⟨'$' :: name.toList, ?_, .bare⟩
      rw [Cursor.rest_of_peek? hpeek, hname.rest_eq, List.cons_append]
  | group e a b c hopen h hclose ih =>
    obtain ⟨text, hrest, htext⟩ := ih (eq_var_of_withRange hvar)
    obtain ⟨x, t, hopens, -⟩ := h.opens
    have hne : (a.skip 1).skipTrivia.rest ≠ [] := by simp [hopens]
    obtain ⟨lead, hlead, hfront⟩ := Cursor.exists_lead hne
    obtain ⟨trail, htrail, hback⟩ := hclose.exists_trail
    refine ⟨_, ?_, .group hlead htext htrail⟩
    rw [Cursor.rest_of_peek? hopen, hfront, hrest, hback]
    simp
  | negate | multiply | add | list => contradiction
  | primary e a b hsign h ih => exact ih hvar
  | factor e a b h ih => exact ih hvar
  | product e a b h ih => exact ih hvar
  | sum e a b h ih => exact ih hvar

/-- One expression stands in front of a closing parenthesis. -/
theorem Stands.eq_of_passes {e e' : Expr} {a b b' c c' : Cursor} (h : e.Stands .list a.skipTrivia b)
    (hclose : b.Passes ')' c) (h' : e'.Stands .list a.skipTrivia b') (hclose' : b'.Passes ')' c') :
    e = e' := by
  obtain ⟨_, hread⟩ := h.reaches (hclose.endsList (by decide))
  obtain ⟨_, hread'⟩ := h'.reaches (hclose'.endsList (by decide))
  exact congrArg Parsed.value (Except.ok.inj (hread.symm.trans hread'))

end Expr

/-- No more parentheses than those that its range covers stand around a reference alone. -/
theorem Statement.not_isParenthesized {source : String} {statements : List Statement}
    (h : parse source = .ok statements) {s : Statement} (hs : s ∈ nodesIn statements)
    {range : Range} {name : String} (he : .var range name ∈ s.exprs) {level : Expr.Level}
    {a b : Cursor} (hstands : (Expr.var range name).Stands level a b)
    (ha : Cursor.start source.toList ≤ a) {text : List Char} (hrest : a.rest = text ++ b.rest) :
    ¬IsParenthesized source statements text b.rest := by
  rintro ⟨gap, lead, trail, behind, ⟨s', hs', value, p, q, gaps, hvalue, hp, htraced, hgap⟩,
    hprevious, hgaprest, hlead, hback, htrail⟩
  -- the gap is in front of the reference, so the group that it is in holds the reference
  have hskip : gap.skipTrivia = a := by
    have hstart := le_trans hp (htraced.lt_of_mem hgap).le
    rw [← hrest] at hgaprest
    rw [Cursor.skipTrivia_of_isTrivia hgaprest hlead hstands.isSolid]
    refine Cursor.eq_of_rest_eq (le_trans hstart (gap.le_skip _)) ha ?_
    rw [Cursor.rest_skip, hgaprest, List.drop_left]
  obtain ⟨inner, u, v, ⟨hopen, rfl, c, hinner, hclose⟩, -, -, hcovers⟩ :=
    htraced.hasGroup hgap hprevious
  have hvar : inner = .var range name := by
    obtain ⟨c', hclose'⟩ :=
      Cursor.passes_of_trail hback htrail (Lexeme.isSolid_cons (by decide) (by decide))
    refine hinner.eq_of_passes hclose ?_ hclose'
    rw [hskip]
    exact hstands.list_of_level
  -- the leaf that covers the parentheses and the reference lie in each other's way
  obtain ⟨leaf, hleaf, hstart, hstop⟩ := hcovers range name hvar
  have hin : value ∈ s'.exprs :=
    List.mem_flatMap.mpr ⟨value, Option.mem_toList.mpr hvalue, value.self_mem_nodes⟩
  have hleaf : leaf ∈ leavesIn statements := leaves_subset_leavesIn hs' hin hleaf
  have hself : .var range name ∈ leavesIn statements :=
    leaves_subset_leavesIn hs he (List.mem_singleton_self _)
  have hrange := hstands.range_eq
  have hopens : u.offset < a.offset :=
    Cursor.offset_lt (hskip ▸ lt_of_lt_of_le (Cursor.lt_skip_one hopen) (Cursor.le_skipTrivia _))
  have hcloses : a.offset < v.offset :=
    Cursor.offset_lt (hskip ▸ lt_of_lt_of_le hinner.lt hclose.le)
  have hends := Cursor.offset_lt hstands.lt
  have hne : leaf ≠ .var range name := by
    rintro rfl
    rw [hrange] at hstart
    exact Nat.not_le_of_lt hopens hstart
  simp only [Cursor.rangeTo] at hstart hstop hrange
  have hapart := leaves_apart h hleaf hself hne
  simp only [Range.EndsBefore, hrange] at hapart
  omega

/-- The range of a reference covers the text of one, and all the parentheses that hold nothing else,
wherever it stands. -/
theorem reference_text {source : String} {statements : List Statement}
    (h : parse source = .ok statements) {s : Statement} (hs : s ∈ Statement.nodesIn statements)
    {range : Range} {name : String} (he : .var range name ∈ s.exprs) :
    ∃ front text rest, range.Cuts source front text rest ∧ IsReference name text ∧
      ¬Statement.IsParenthesized source statements text rest := by
  obtain ⟨level, a, b, hstands, ha, -⟩ := exists_stands_of_mem_exprs h hs he
  obtain ⟨text, hrest, htext⟩ := hstands.isReference rfl
  obtain ⟨front, hcuts⟩ := Cursor.exists_cut ha hstands.le hrest
  rw [← hstands.range_eq] at hcuts
  exact ⟨front, text, b.rest, hcuts, htext,
    Statement.not_isParenthesized h hs he hstands ha hrest⟩

end Stylesheet
