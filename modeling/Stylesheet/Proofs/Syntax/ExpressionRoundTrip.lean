import Stylesheet.Proofs.Syntax.ReadingLevels

/-!
# Reading printed expressions

Each level of the parser reads the terms that hold together tightly enough for it, up to what can
stand behind them (`Term.IsWellFormed.reads`). Parentheses make a factor of any term.
-/

namespace Stylesheet

open Cursor (Reaches)

/-! ## Factors -/

section

variable {text : List Char} {e : Expr}

theorem Cursor.isNegation_eq_false {c : Cursor} {d : Char} {s : List Char} (hrest : c.rest = d :: s)
    (hd : d ≠ '-') : c.isNegation = false := by
  simp [isNegation, peek?, hrest, hd]

theorem Cursor.reaches_factor_of_primary {c next : Cursor} {a : Expr}
    (hnegation : c.skipTrivia.isNegation = false) (h : Reaches c.skipTrivia.primary a next) :
    Reaches c.factor a next := by
  rw [factor, dif_neg (by simp [hnegation])]
  exact h.bind fun _ => ⟨_, rfl⟩

theorem Cursor.reaches_factor_of_negation {c next : Cursor} {a : Expr}
    (hnegation : c.skipTrivia.isNegation = true) (h : Reaches (c.skipTrivia.skip 1).factor a next) :
    Reaches c.factor (.negate ⟨c.skipTrivia.offset, a.range.stop⟩ a) next := by
  rw [factor, dif_pos hnegation]
  exact h.bind fun _ => ⟨_, rfl⟩

theorem Cursor.reaches_primary_of_parenthesis {c next last : Cursor} {a : Expr} {s : List Char}
    (hrest : c.rest = '(' :: s) (hinner : Reaches (c.skip 1).expr a next)
    (hclose : Reaches (next.expect ')') () last) :
    Reaches c.primary (a.withRange ⟨c.offset, last.offset⟩) last := by
  have hnumber : c.number? = none := number?_eq_none hrest (by decide) (by decide)
  obtain ⟨offset, previous, _⟩ := c
  obtain rfl := hrest
  rw [primary]
  simp only [hnumber]
  exact hinner.bind fun _ => hclose.bind fun _ => ⟨_, rfl⟩

/-- A leaf that the parser finds in front of every delimiter. -/
theorem readsFactor_of_leaf (hopens : Opens text)
    (hnegation : ∀ (c : Cursor) rest, c.rest = text ++ rest → c.isNegation = false)
    (h : ∀ (c : Cursor) x rest, Lexeme.isDelimiter x = true → c.rest = text ++ x :: rest →
      ∃ e' next, Reaches c.primary e' next ∧ e'.unplaced = e ∧ next.rest = x :: rest) :
    ReadsFactor text e := by
  intro c rest hrest hc
  have hleaf := hc.rest_skipTrivia (hopens.append rest).isSolid
  obtain ⟨x, s, rfl, hx⟩ := hrest.exists_delimiter
  obtain ⟨e', next, hprimary, he, hnext⟩ := h c.skipTrivia x s hx hleaf
  exact ⟨e', next, Cursor.reaches_factor_of_primary (hnegation _ _ hleaf) hprimary, he,
    Cursor.faces_of_rest_eq hnext⟩

@[simp] theorem Expr.unplaced_withRange (range : Range) (e : Expr) :
    (e.withRange range).unplaced = e.unplaced := by
  cases e <;> rfl

theorem ReadsWhole.parenthesized (h : ReadsWhole text e) :
    ReadsFactor ('(' :: text ++ [')']) e := by
  intro c rest hrest hc
  rw [List.append_assoc, List.singleton_append] at hc
  have hopen := hc.rest_skipTrivia (Lexeme.isSolid_cons (by decide) (by decide))
  have hinner : (c.skipTrivia.skip 1).Faces (text ++ ')' :: rest) := by
    apply Cursor.faces_of_rest_eq
    rw [Cursor.rest_skip, hopen]
    rfl
  obtain ⟨e', next, hexpr, he, hnext⟩ := h _ _ ⟨')', rest, rfl, .inl rfl⟩ hinner
  obtain ⟨last, hclose, hlast⟩ := hnext.expect (Lexeme.isSolid_cons (by decide) (by decide))
  refine ⟨_, last, Cursor.reaches_factor_of_primary (Cursor.isNegation_eq_false hopen (by decide))
    (Cursor.reaches_primary_of_parenthesis hopen hexpr hclose), ?_, Cursor.faces_of_rest_eq hlast⟩
  rw [Expr.unplaced_withRange, he]

/-- A term is read where it stands, with parentheses if it needs them. -/
theorem ReadsAt.enclosed {t : Term} (h : ReadsAt text e t.level) (also : Place → Term → Bool)
    (place : Place) : ReadsAt (place.enclose also t text) e place.level := by
  rw [Place.enclose]
  split
  · have hwhole : ReadsWhole text e := h.mono (Nat.zero_le _)
    have hfactor : ReadsAt ('(' :: text ++ [')']) e 3 := hwhole.parenthesized
    apply hfactor.mono
    cases place with
    | left operator | right operator => cases operator <;> decide
    | whole | item | negated => decide
  · rename_i hplain
    simp only [Bool.or_eq_true, not_or] at hplain
    apply h.mono
    cases place with
    | negated =>
      have hnegatable : t.isNegatable = true := by simpa [Place.needsParentheses] using hplain.1
      cases t <;> first
        | exact Nat.le_refl 3
        | contradiction
    | whole | item | left operator | right operator =>
      simpa [Place.needsParentheses] using hplain.1

end

/-! ## Operations and lists -/

section

variable {left right : List Char} {l r : Expr}

theorem readsSum_operation {operator : Operator} (hlevel : operator.level = 1)
    (hleft : ReadsSum left l) (hright : ReadsProduct right r) :
    ReadsSum (left ++ ' ' :: operator.symbol.toList ++ ' ' :: right)
      (.binary .nowhere operator l r) := by
  intro c rest hrest hc
  have htext : left ++ ' ' :: operator.symbol.toList ++ ' ' :: right ++ rest =
      left ++ (' ' :: operator.symbol.toList ++ ' ' :: (right ++ rest)) := by simp
  rw [htext] at hc
  obtain ⟨l', next, hsum, hl, hnext⟩ := hleft c _ (.operator (Nat.le_of_eq hlevel) _) hc
  obtain ⟨r', last, hproduct, hr, hlast⟩ :=
    hright _ rest (hrest.mono (by decide)) (Cursor.faces_operator hnext).2
  have hends := hproduct _ _ (Cursor.reaches_productFrom_of_follows hlast hrest r')
  refine ⟨l'.join operator r', last.skipTrivia, ?_, ?_, hlast.skipTrivia⟩
  · intro a final hmore
    exact hsum _ _ (Cursor.reaches_sumFrom_of_operator
      (Cursor.additive?_of_faces hlevel hnext) hends hmore)
  · rw [Expr.join, Expr.unplaced, hl, hr]

theorem readsProduct_operation {operator : Operator} (hlevel : operator.level = 2)
    (hleft : ReadsProduct left l) (hright : ReadsFactor right r) :
    ReadsProduct (left ++ ' ' :: operator.symbol.toList ++ ' ' :: right)
      (.binary .nowhere operator l r) := by
  intro c rest hrest hc
  have htext : left ++ ' ' :: operator.symbol.toList ++ ' ' :: right ++ rest =
      left ++ (' ' :: operator.symbol.toList ++ ' ' :: (right ++ rest)) := by simp
  rw [htext] at hc
  obtain ⟨l', next, hproduct, hl, hnext⟩ := hleft c _ (.operator (Nat.le_of_eq hlevel) _) hc
  obtain ⟨r', last, hfactor, hr, hlast⟩ := hright _ rest hrest (Cursor.faces_operator hnext).2
  refine ⟨l'.join operator r', last, ?_, ?_, hlast⟩
  · intro a final hmore
    exact hproduct _ _ (Cursor.reaches_productFrom_of_operator
      (Cursor.multiplicative?_of_faces hlevel hnext) hfactor hmore)
  · rw [Expr.join, Expr.unplaced, hl, hr]

end

section

variable {also : Place → Term → Bool}

/-- Items go on with what can stand behind an item. -/
theorem follows_moreText {items : List Term} (h : ∀ t ∈ items, t.IsWellFormed) {rest : List Char}
    (hrest : Closes rest) : Follows 0 (Term.moreText also items ++ rest) := by
  cases items with
  | nil => exact .closing hrest
  | cons item items =>
    have hitem := (h item (List.mem_cons_self ..)).opens also
    rw [Term.moreText, List.append_assoc, List.cons_append]
    exact .item ((Place.opens_enclose also hitem .item item).append _)

theorem reaches_items {items : List Term} (h : ∀ t ∈ items, t.IsWellFormed)
    (hreads : ∀ t ∈ items, ReadsAt (t.text also) t.tree t.level) {rest : List Char}
    (hrest : Closes rest) (c : Cursor) (hc : c.Faces (Term.moreText also items ++ rest)) :
    ∃ es last, Reaches c.items es last ∧ Expr.unplacedAll es = Term.trees items ∧
      last.Faces rest := by
  induction items generalizing c with
  | nil => exact ⟨[], c.skipTrivia, Cursor.reaches_items_of_closes hrest hc, rfl, hc.skipTrivia⟩
  | cons item items ih =>
    simp only [List.mem_cons, forall_eq_or_imp] at h hreads
    rw [Term.moreText, List.append_assoc, List.cons_append] at hc
    have hitem := Place.opens_enclose also (h.1.opens also) .item item
    have hfirst := hc.of_blank (by decide)
    have hsum : ReadsSum (Place.enclose also .item item (item.text also)) item.tree :=
      hreads.1.enclosed also .item
    obtain ⟨e, next, he, htree, hnext⟩ :=
      hsum.reaches (follows_moreText h.2 hrest) hfirst.skipTrivia
    obtain ⟨es, last, hes, htrees, hlast⟩ := ih h.2 hreads.2 next hnext
    have hstarts : c.skipTrivia.peek?.any Lexeme.startsItem = true := by
      have hpeek := hfirst.rest_skipTrivia (hitem.append _).isSolid
      obtain ⟨d, t, htext, hd, -⟩ := hitem
      rw [Cursor.peek?, hpeek, htext]
      exact hd
    refine ⟨e :: es, last, ?_, ?_, hlast⟩
    · rw [Cursor.items, if_pos hstarts]
      exact he.bind fun _ => hes.bind fun _ => ⟨_, rfl⟩
    · rw [Expr.unplacedAll, Term.trees, htree, htrees]

theorem readsWhole_list {item : Term} {items : List Term} (hne : items ≠ [])
    (h : ∀ t ∈ item :: items, t.IsWellFormed)
    (hreads : ∀ t ∈ item :: items, ReadsAt (t.text also) t.tree t.level) :
    ReadsWhole ((Term.list (item :: items)).text also) (Term.list (item :: items)).tree := by
  intro c rest hrest hc
  simp only [List.mem_cons, forall_eq_or_imp] at h hreads
  rw [Term.text, List.append_assoc] at hc
  have hsum : ReadsSum (Place.enclose also .item item (item.text also)) item.tree :=
    hreads.1.enclosed also .item
  obtain ⟨e, next, he, htree, hnext⟩ := hsum.reaches (follows_moreText h.2 hrest) hc
  obtain ⟨es, last, hes, htrees, hlast⟩ := reaches_items h.2 hreads.2 hrest next hnext
  obtain ⟨final, hfinal⟩ : ∃ final, es.getLast? = some final := by
    cases es with
    | nil =>
      cases items with
      | nil => contradiction
      | cons second items => simp [Expr.unplacedAll, Term.trees] at htrees
    | cons e' es => exact ⟨_, List.getLast?_cons⟩
  refine ⟨.list (e.range.cover final.range) (e :: es), last, ?_, ?_, hlast⟩
  · rw [Cursor.expr]
    refine he.bind fun _ => hes.bind fun _ => ?_
    simp only [hfinal]
    exact ⟨_, rfl⟩
  · rw [Expr.unplaced, Expr.unplacedAll, htree, htrees, Term.tree, Term.trees]

/-! ## Leaves and negations -/

theorem readsFactor_number {literal : Lexeme.Number} (h : literal.IsLiteral) :
    ReadsFactor ((Term.number literal).text also) (Term.number literal).tree := by
  apply readsFactor_of_leaf ((Term.IsWellFormed.number h).opens also)
  · intro c rest hrest
    obtain ⟨d, s, htext, hd⟩ := h.exists_head
    rw [Term.text, htext, List.cons_append] at hrest
    apply Cursor.isNegation_eq_false hrest
    rintro rfl
    revert hd
    decide
  · intro c x rest hx hrest
    exact Cursor.reaches_primary_number h hx hrest

theorem readsFactor_name {text : String} (h : IsName text) :
    ReadsFactor ((Term.word text).text also) (Term.word text).tree := by
  apply readsFactor_of_leaf h.opens
  · intro c rest hrest
    obtain ⟨d, s, htext, hd | ⟨rfl, d', u, rfl, hd⟩⟩ :=
      Lexeme.exists_of_startsIdent (Lexeme.isName_iff.mp h).1
    · rw [htext, List.cons_append] at hrest
      exact Cursor.isNegation_eq_false hrest (Lexeme.ne_of_isIdentStart hd (by decide))
    · rw [htext, List.cons_append, List.cons_append] at hrest
      have hother : d' ∉ ['.', '$', '('] := Lexeme.not_mem_of_isIdentStart hd (by decide)
      have hdigit := Lexeme.isDigit_eq_false_of_isIdentStart hd
      simp only [List.mem_cons, List.not_mem_nil, or_false, not_or] at hother
      simp [Cursor.isNegation, Cursor.peekSecond?, hrest, hdigit, hother]
  · intro c x rest hx hrest
    exact Cursor.reaches_primary_name h hx hrest

theorem readsFactor_hash {text : String} {digits : List Char} (htext : text.toList = '#' :: digits)
    (hdigits : ∀ c ∈ digits, c.isAlphanum = true) :
    ReadsFactor ((Term.word text).text also) (Term.word text).tree := by
  apply readsFactor_of_leaf ((Term.IsWellFormed.hash htext hdigits).opens also)
  · intro c rest hrest
    rw [Term.text, htext, List.cons_append] at hrest
    exact Cursor.isNegation_eq_false hrest (by decide)
  · intro c x rest hx hrest
    exact Cursor.reaches_primary_hash htext hdigits hx hrest

theorem readsFactor_quoted (text : String) :
    ReadsFactor ((Term.quoted text).text also) (Term.quoted text).tree := by
  apply readsFactor_of_leaf ((Term.IsWellFormed.quoted text).opens also)
  · intro c rest hrest
    exact Cursor.isNegation_eq_false hrest (by decide)
  · intro c x rest hx hrest
    rw [Term.text, List.append_assoc] at hrest
    exact Cursor.reaches_primary_quoted hrest

theorem readsFactor_var {name : String} (h : IsName name) :
    ReadsFactor ((Term.var name).text also) (Term.var name).tree := by
  apply readsFactor_of_leaf ((Term.IsWellFormed.var h).opens also)
  · intro c rest hrest
    exact Cursor.isNegation_eq_false hrest (by decide)
  · intro c x rest hx hrest
    exact Cursor.reaches_primary_var h hx hrest

/-- What a hyphen negates starts so that the hyphen negates it. -/
theorem Term.IsWellFormed.exists_negated_head {t : Term} (h : t.IsWellFormed)
    (also : Place → Term → Bool) :
    ∃ c s, Place.enclose also .negated t (t.text also) = c :: s ∧
      (c.isDigit || ".$(".toList.contains c) = true := by
  rw [Place.enclose]
  split
  · exact ⟨'(', _, rfl, by decide⟩
  · rename_i hplain
    simp only [Bool.or_eq_true, not_or] at hplain
    have hnegatable : t.isNegatable = true := by simpa [Place.needsParentheses] using hplain.1
    cases h with
    | number h =>
      obtain ⟨c, s, htext, hc | rfl⟩ := h.exists_head
      · exact ⟨c, s, htext, by rw [hc, Bool.true_or]⟩
      · exact ⟨'.', s, htext, by decide⟩
    | var h => exact ⟨'$', _, rfl, by decide⟩
    | name | hash | quoted | binary | negate | list => contradiction

theorem readsFactor_negate {t : Term} (h : t.IsWellFormed)
    (hreads : ReadsAt (t.text also) t.tree t.level) :
    ReadsFactor ((Term.negate t).text also) (Term.negate t).tree := by
  intro c rest hrest hc
  have hfactor : ReadsFactor (Place.enclose also .negated t (t.text also)) t.tree :=
    hreads.enclosed also .negated
  have hhyphen := hc.rest_skipTrivia (((Term.IsWellFormed.negate h).opens also).append rest).isSolid
  rw [Term.text, List.cons_append] at hhyphen
  have hnegation : c.skipTrivia.isNegation = true := by
    obtain ⟨d, s, htext, hd⟩ := h.exists_negated_head also
    rw [htext, List.cons_append] at hhyphen
    simp only [Cursor.isNegation, Cursor.peek?, Cursor.peekSecond?, hhyphen]
    simpa using hd
  have hoperand : (c.skipTrivia.skip 1).Faces
      (Place.enclose also .negated t (t.text also) ++ rest) := by
    apply Cursor.faces_of_rest_eq
    rw [Cursor.rest_skip, hhyphen]
    rfl
  obtain ⟨e, next, he, htree, hnext⟩ := hfactor _ rest hrest hoperand
  refine ⟨_, next, Cursor.reaches_factor_of_negation hnegation he, ?_, hnext⟩
  rw [Expr.unplaced, htree, Term.tree]

/-! ## Terms -/

/-- Every term is read at the level at which it holds together. -/
theorem Term.IsWellFormed.reads {t : Term} (h : t.IsWellFormed) :
    ReadsAt (t.text also) t.tree t.level := by
  induction h with
  | number h => exact readsFactor_number h
  | name h => exact readsFactor_name h
  | hash htext hdigits => exact readsFactor_hash htext hdigits
  | quoted text => exact readsFactor_quoted text
  | var h => exact readsFactor_var h
  | @binary operator left right hleft hright ihleft ihright =>
    have hl := ihleft.enclosed also (.left operator)
    have hr := ihright.enclosed also (.right operator)
    cases operator with
    | add | subtract => exact readsSum_operation rfl hl hr
    | multiply | divide => exact readsProduct_operation rfl hl hr
  | negate h ih => exact readsFactor_negate h ih
  | @list items hlength h ih =>
    match items with
    | [] | [_] => contradiction
    | item :: second :: items => exact readsWhole_list (List.cons_ne_nil _ _) h ih

/-- A term by itself is read as a whole expression. -/
theorem Term.IsWellFormed.reads_print {t : Term} (h : t.IsWellFormed) :
    ReadsWhole (t.print also) t.tree :=
  h.reads.enclosed also .whole

end

end Stylesheet
