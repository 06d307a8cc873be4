import Stylesheet.Proofs.Syntax.ExpressionRoundTrip

/-!
# Reading printed stylesheets

The parser undoes printing: a printed stylesheet is accepted, and its statements are the clauses
that were printed (`parse_print`). A clause is read up to its own end, whatever follows, and a block
up to its closing brace.
-/

namespace Stylesheet

open Cursor (Reaches)

/-! ## Heads of statements -/

namespace Lexeme

theorem isName_of_isAlpha {s : String} (hne : s.toList ≠ [])
    (h : ∀ c ∈ s.toList, c.toNat < 0x80 ∧ c.isAlpha = true) : IsName s := by
  obtain ⟨c, t, hs⟩ := List.exists_cons_of_ne_nil hne
  have hc := h c (by rw [hs]; exact List.mem_cons_self ..)
  refine isName_iff.mpr ⟨?_, ?_⟩
  · have hstart : isIdentStart c = true := by rw [isIdentStart_eq hc.1, hc.2, Bool.true_or]
    have hhyphen : c ≠ '-' := ne_of_isIdentStart hstart (by decide)
    rw [hs]
    simpa [startsIdent, hhyphen] using hstart
  · intro d hd
    obtain ⟨hascii, halpha⟩ := h d hd
    rw [isIdentChar_eq hascii, Char.isAlphanum, halpha, Bool.true_or, Bool.true_or, Bool.true_or]

/-- The text up to a mark. -/
theorem head_append {run rest : List Char} {x : Char} (hrun : ∀ c ∈ run, isStatementMark c = false)
    (hx : isStatementMark x = true) : head (run ++ x :: rest) = run := by
  apply takeWhile_append_of_stop
  · intro c hc
    rw [hrun c hc]
    rfl
  · intro c hc
    obtain rfl := Option.some.inj hc
    rw [hx]
    rfl

theorem looksLikeDeclaration_append {run rest : List Char} {x : Char}
    (hrun : ∀ c ∈ run, isStatementMark c = false) (hx : isStatementMark x = true) :
    looksLikeDeclaration (run ++ x :: rest) = (x != '{') := by
  rw [looksLikeDeclaration, head_append hrun hx, List.drop_left, List.head?_cons]
  rw [Bool.eq_iff_iff]
  simp

/-- A text without an opening brace up to a semicolon looks like a declaration. -/
theorem looksLikeDeclaration_of_not_mem {s : List Char} (h : '{' ∉ s) (rest : List Char) :
    looksLikeDeclaration (s ++ ';' :: rest) = true := by
  obtain ⟨run, x, t, hs, hrun, hx, hne⟩ : ∃ run x t, s ++ ';' :: rest = run ++ x :: t ∧
      (∀ c ∈ run, isStatementMark c = false) ∧ isStatementMark x = true ∧ x ≠ '{' := by
    induction s with
    | nil => exact ⟨[], ';', rest, rfl, by simp, by decide, by decide⟩
    | cons c s ih =>
      rw [List.mem_cons, not_or] at h
      cases hc : isStatementMark c with
      | true => exact ⟨[], c, s ++ ';' :: rest, rfl, by simp, hc, Ne.symm h.1⟩
      | false =>
        obtain ⟨run, x, t, hs, hrun, hx, hne⟩ := ih h.2
        refine ⟨c :: run, x, t, by rw [List.cons_append, hs, List.cons_append], ?_, hx, hne⟩
        simpa [hc] using hrun
  rw [hs, looksLikeDeclaration_append hrun hx]
  simpa using hne

end Lexeme

namespace IsSelector

variable {s : String}

theorem isBlank_head (h : IsSelector s) {c : Char} {t : List Char} (hs : s.toList = c :: t) :
    Text.isBlank c = false := by
  rw [Bool.eq_false_iff]
  intro hc
  have hlength := congrArg List.length h.trim_eq
  have hle (l : List Char) : (l.dropWhile Text.isBlank).length ≤ l.length :=
    (List.dropWhile_suffix _).length_le
  rw [hs, Text.trim, List.dropWhile_cons_of_pos hc, List.length_reverse,
    List.length_cons] at hlength
  have hfirst := hle (t.dropWhile Text.isBlank).reverse
  have hsecond := hle t
  rw [List.length_reverse] at hfirst
  omega

theorem noMark_append (h : IsSelector s) :
    ∀ c ∈ s.toList ++ [' '], Lexeme.isStatementMark c = false := by
  intro c hc
  obtain hc | hc := List.mem_append.mp hc
  · exact h.noMark c hc
  · obtain rfl := List.mem_singleton.mp hc
    decide

/-- The text up to the opening brace of a rule. -/
theorem head_eq (h : IsSelector s) (rest : List Char) :
    Lexeme.head (s.toList ++ ' ' :: '{' :: rest) = s.toList ++ [' '] := by
  rw [← List.singleton_append, ← List.append_assoc]
  exact Lexeme.head_append h.noMark_append (by decide)

theorem looksLikeDeclaration_eq_false (h : IsSelector s) (rest : List Char) :
    Lexeme.looksLikeDeclaration (s.toList ++ ' ' :: '{' :: rest) = false := by
  rw [← List.singleton_append, ← List.append_assoc,
    Lexeme.looksLikeDeclaration_append h.noMark_append (by decide)]
  decide

/-- A blank behind a selector is not part of it. -/
theorem trim_append (h : IsSelector s) : Text.trim (s.toList ++ [' ']) = s.toList := by
  obtain ⟨c, t, hs⟩ := List.exists_cons_of_ne_nil h.ne_nil
  have hc := h.isBlank_head hs
  have hblank : Text.isBlank ' ' = true := by decide
  have htrim := h.trim_eq
  rw [hs, Text.trim, List.dropWhile_cons_of_neg (by simp [hc])] at htrim
  rw [hs, Text.trim, List.cons_append, List.dropWhile_cons_of_neg (by simp [hc]),
    ← List.cons_append, List.reverse_append, List.reverse_singleton, List.singleton_append,
    List.dropWhile_cons_of_pos hblank, htrim]

theorem isSolid (h : IsSelector s) (rest : List Char) :
    Lexeme.IsSolid (s.toList ++ ' ' :: rest) := by
  obtain ⟨c, t, hs⟩ := List.exists_cons_of_ne_nil h.ne_nil
  by_cases hslash : c = '/'
  · subst hslash
    obtain ⟨hline, hblock⟩ := h.noComment
    rw [hs]
    cases t with
    | nil => exact Lexeme.isSolid_slash (by decide) (by decide)
    | cons d t =>
      rw [hs] at hline hblock
      apply Lexeme.isSolid_slash
      · rintro rfl
        exact hline ⟨t, rfl⟩
      · rintro rfl
        exact hblock ⟨t, rfl⟩
  · rw [hs]
    exact Lexeme.isSolid_cons (h.isBlank_head hs) hslash

end IsSelector

/-- A name does not start like an assignment or an at-rule, and closes no block. -/
theorem IsName.exists_head {s : String} (h : IsName s) :
    ∃ x t, s.toList = x :: t ∧ x ∉ ['$', '@'] ∧ x ≠ '\x7d' := by
  obtain ⟨x, t, hx, hstart⟩ := Lexeme.exists_of_startsIdent (Lexeme.isName_iff.mp h).1
  refine ⟨x, t, hx, ?_⟩
  obtain hstart | ⟨rfl, -⟩ := hstart
  · exact ⟨Lexeme.not_mem_of_isIdentStart hstart (by decide),
      Lexeme.ne_of_isIdentStart hstart (by decide)⟩
  · decide

/-! ## Parts of statements -/

namespace Cursor

variable {also : Place → Term → Bool} {c next last : Cursor} {t : Term} {x : Char}
  {rest s : List Char}

/-- A printed expression up to its semicolon, which stands behind a blank. -/
theorem reaches_expr_print (h : t.IsWellFormed)
    (hc : c.rest = ' ' :: t.print also ++ ';' :: rest) :
    ∃ e next, Reaches c.expr e next ∧ e.unplaced = t.tree ∧ next.Faces (';' :: rest) := by
  rw [List.cons_append] at hc
  exact h.reads_print c _ ⟨';', rest, rfl, .inr rfl⟩ ((faces_of_rest_eq hc).of_blank (by decide))

theorem Faces.expect_semicolon (h : c.Faces (';' :: rest)) :
    ∃ next, Reaches (c.expect ';') () next ∧ next.rest = rest :=
  h.expect (Lexeme.isSolid_cons (by decide) (by decide))

theorem reaches_expect (hc : c.rest = x :: rest) (hx : Text.isBlank x = false) (hslash : x ≠ '/') :
    ∃ next, Reaches (c.expect x) () next ∧ next.rest = rest :=
  (faces_of_rest_eq hc).expect (Lexeme.isSolid_cons hx hslash)

theorem reaches_message (h : t.IsWellFormed) (hc : c.rest = ' ' :: t.print also ++ ';' :: rest)
    (start : Nat) :
    ∃ range e next, Reaches (c.message start) (range, e) next ∧ e.unplaced = t.tree ∧
      next.rest = rest := by
  obtain ⟨e, afterValue, he, htree, hvalue⟩ := reaches_expr_print h hc
  obtain ⟨next, hend, hnext⟩ := hvalue.expect_semicolon
  refine ⟨⟨start, e.range.stop⟩, e, next, ?_, htree, hnext⟩
  rw [message]
  exact he.bind fun _ => hend.bind fun _ => ⟨_, rfl⟩

theorem reaches_assignment {name : String} (hname : IsName name) (h : t.IsWellFormed)
    (hc : c.rest = '$' :: name.toList ++ ':' :: ' ' :: t.print also ++ ';' :: rest) :
    ∃ range e next, Reaches c.assignment (.assign range name e) next ∧ e.unplaced = t.tree ∧
      next.rest = rest := by
  have hident : (c.skip 1).rest = name.toList ++ ':' :: (' ' :: t.print also ++ ';' :: rest) := by
    simp [hc]
  obtain ⟨afterName, hident, hafter⟩ := reaches_ident hname (by decide) hident .variableName
  obtain ⟨afterColon, hcolon, hafter⟩ := reaches_expect hafter (by decide) (by decide)
  obtain ⟨e, afterValue, he, htree, hvalue⟩ := reaches_expr_print h hafter
  obtain ⟨next, hend, hnext⟩ := hvalue.expect_semicolon
  refine ⟨⟨c.offset, e.range.stop⟩, e, next, ?_, htree, hnext⟩
  rw [assignment]
  exact hident.bind fun _ => hcolon.bind fun _ => he.bind fun _ => hend.bind fun _ => ⟨_, rfl⟩

theorem reaches_declaration {property : String} (hname : IsName property) (h : t.IsWellFormed)
    (hc : c.rest = property.toList ++ ':' :: ' ' :: t.print also ++ ';' :: rest) :
    ∃ range e next, Reaches c.declaration (.declaration range property e) next ∧
      e.unplaced = t.tree ∧ next.rest = rest := by
  have hident : c.rest = property.toList ++ ':' :: (' ' :: t.print also ++ ';' :: rest) := by
    simp [hc]
  obtain ⟨afterName, hident, hafter⟩ := reaches_ident hname (by decide) hident .propertyName
  obtain ⟨afterColon, hcolon, hafter⟩ := reaches_expect hafter (by decide) (by decide)
  obtain ⟨e, afterValue, he, htree, hvalue⟩ := reaches_expr_print h hafter
  obtain ⟨next, hend, hnext⟩ := hvalue.skipTrivia.expect_semicolon
  have hbrace : afterValue.skipTrivia.peek? ≠ some '\x7d' := by
    rw [hvalue.peek?_skipTrivia (Lexeme.isSolid_cons (by decide) (by decide))]
    decide
  have hdone : Reaches afterValue.declarationEnd () next := by
    rw [declarationEnd, if_neg hbrace]
    exact hend.bind fun _ => ⟨_, rfl⟩
  refine ⟨⟨c.offset, e.range.stop⟩, e, next, ?_, htree, hnext⟩
  rw [declaration]
  exact hident.bind fun _ => hcolon.bind fun _ => he.bind fun _ => hdone.bind fun _ => ⟨_, rfl⟩

theorem reaches_mixinName {name : String} (hname : IsName name) (hx : Lexeme.isDelimiter x = true)
    (hc : c.rest = ' ' :: name.toList ++ x :: rest) :
    ∃ stop next, Reaches c.mixinName (name, stop) next ∧ next.rest = x :: rest := by
  rw [List.cons_append] at hc
  have hsolid : Lexeme.IsSolid (name.toList ++ x :: rest) := (hname.opens.append _).isSolid
  have hident := ((faces_of_rest_eq hc).of_blank (by decide)).rest_skipTrivia hsolid
  obtain ⟨next, hident, hnext⟩ := reaches_ident hname hx hident .mixinName
  refine ⟨next.offset, next, ?_, hnext⟩
  rw [mixinName]
  exact hident.bind fun _ => ⟨_, rfl⟩

theorem reaches_mixinHead {name : String} (hname : IsName name)
    (hc : c.rest = ' ' :: name.toList ++ ' ' :: '{' :: rest) :
    ∃ next, Reaches c.mixinHead name next ∧ next.rest = rest := by
  obtain ⟨stop, afterName, hmixin, hafter⟩ := reaches_mixinName hname (by decide) hc
  have hbrace : afterName.Faces ('{' :: rest) := (faces_of_rest_eq hafter).of_blank (by decide)
  obtain ⟨next, hbrace, hnext⟩ := hbrace.expect (Lexeme.isSolid_cons (by decide) (by decide))
  refine ⟨next, ?_, hnext⟩
  rw [mixinHead]
  exact hmixin.bind fun _ => hbrace.bind fun _ => ⟨_, rfl⟩

theorem reaches_inclusion {name : String} (hname : IsName name)
    (hc : c.rest = ' ' :: name.toList ++ ';' :: rest) (start : Nat) :
    ∃ range next, Reaches (c.inclusion start) (.includeMixin range name) next ∧
      next.rest = rest := by
  obtain ⟨stop, afterName, hmixin, hafter⟩ := reaches_mixinName hname (by decide) hc
  obtain ⟨next, hend, hnext⟩ := reaches_expect hafter (by decide) (by decide)
  refine ⟨⟨start, stop⟩, next, ?_, hnext⟩
  rw [inclusion]
  exact hmixin.bind fun _ => hend.bind fun _ => ⟨_, rfl⟩

theorem reaches_ruleHead {selector : String} (h : IsSelector selector)
    (hc : c.rest = selector.toList ++ ' ' :: '{' :: rest) :
    ∃ next, Reaches c.ruleHead selector next ∧ next.rest = rest := by
  have hrest : c.rest = (selector.toList ++ [' ']) ++ '{' :: rest := by simp [hc]
  have hhead : Lexeme.head c.rest = selector.toList ++ [' '] := by
    rw [hc]
    exact h.head_eq rest
  have hbrace : (c.skip (selector.toList ++ [' ']).length).rest = '{' :: rest := by
    rw [rest_skip, hrest, List.drop_left]
  have hselector : selector.toList.isEmpty = false := List.isEmpty_eq_false_iff.mpr h.ne_nil
  refine ⟨(c.skip (selector.toList ++ [' ']).length).skip 1, ?_, ?_⟩
  · have hpeek : (c.skip (selector.toList ++ [' ']).length).peek? = some '{' := by
      rw [peek?, hbrace]
      rfl
    rw [ruleHead]
    simp only [hhead, hpeek, dite_true, h.trim_append, hselector, Bool.false_eq_true, if_false,
      String.ofList_toList]
    exact ⟨_, rfl⟩
  · rw [rest_skip, hbrace]
    rfl

/-! ## Which statement stands here -/

variable {isBlock : Bool} {e : Expr} {range : Range} {body : List Statement} {afterHead : Cursor}

theorem statement_of_dollar (hc : c.rest = '$' :: s) : c.statement isBlock = c.assignment := by
  obtain ⟨offset, previous, _⟩ := c
  obtain rfl := hc
  rw [statement]
  rfl

/-- The name of an at-rule, whose at sign stands here. -/
theorem reaches_keyword {keyword : String} (hkeyword : IsName keyword)
    (hc : c.rest = '@' :: (keyword.toList ++ ' ' :: s)) :
    ∃ next, Reaches ((c.skip 1).ident .atRuleName) keyword next ∧ next.rest = ' ' :: s := by
  have hrest : (c.skip 1).rest = keyword.toList ++ ' ' :: s := by
    rw [rest_skip, hc]
    rfl
  exact reaches_ident hkeyword (by decide) hrest .atRuleName

theorem reaches_statement_of_warn (hc : c.rest = '@' :: s)
    (hkeyword : Reaches ((c.skip 1).ident .atRuleName) "warn" next)
    (hmessage : Reaches (next.message c.offset) (range, e) last) :
    Reaches (c.statement isBlock) (.warn range e) last := by
  obtain ⟨offset, previous, _⟩ := c
  obtain rfl := hc
  rw [statement]
  exact hkeyword.bind fun _ => hmessage.bind fun _ => ⟨_, rfl⟩

theorem reaches_statement_of_debug (hc : c.rest = '@' :: s)
    (hkeyword : Reaches ((c.skip 1).ident .atRuleName) "debug" next)
    (hmessage : Reaches (next.message c.offset) (range, e) last) :
    Reaches (c.statement isBlock) (.debug range e) last := by
  obtain ⟨offset, previous, _⟩ := c
  obtain rfl := hc
  rw [statement]
  exact hkeyword.bind fun _ => hmessage.bind fun _ => ⟨_, rfl⟩

theorem reaches_statement_of_mixin {name : String} (hc : c.rest = '@' :: s)
    (hkeyword : Reaches ((c.skip 1).ident .atRuleName) "mixin" next)
    (hhead : Reaches next.mixinHead name afterHead) (hbody : Reaches afterHead.block body last) :
    Reaches (c.statement isBlock) (.defineMixin ⟨c.offset, last.offset⟩ name body) last := by
  obtain ⟨offset, previous, _⟩ := c
  obtain rfl := hc
  rw [statement]
  exact hkeyword.bind fun _ => hhead.bind fun _ => hbody.bind fun _ => ⟨_, rfl⟩

theorem reaches_statement_of_include {statement : Statement} (hc : c.rest = '@' :: s)
    (hkeyword : Reaches ((c.skip 1).ident .atRuleName) "include" next)
    (hinclusion : Reaches (next.inclusion c.offset) statement last) :
    Reaches (c.statement isBlock) statement last := by
  obtain ⟨offset, previous, _⟩ := c
  obtain rfl := hc
  rw [Cursor.statement]
  exact hkeyword.bind fun _ => hinclusion.bind fun _ => ⟨_, rfl⟩

theorem statement_of_declaration (hc : c.rest = x :: s) (hx : x ∉ ['$', '@'])
    (hlooks : Lexeme.looksLikeDeclaration c.rest = true) :
    c.statement true = c.declaration := by
  obtain ⟨offset, previous, _⟩ := c
  obtain rfl := hc
  rw [statement]
  split
  · contradiction
  · rename_i heq
    obtain rfl := Option.some.inj heq
    simp at hx
  · rename_i heq
    obtain rfl := Option.some.inj heq
    simp at hx
  · rw [hlooks]
    rfl

theorem reaches_statement_of_rule {selector : String} (hc : c.rest = x :: s) (hx : x ∉ ['$', '@'])
    (hlooks : (isBlock && Lexeme.looksLikeDeclaration c.rest) = false)
    (hhead : Reaches c.ruleHead selector afterHead) (hbody : Reaches afterHead.block body last) :
    Reaches (c.statement isBlock) (.rule ⟨c.offset, last.offset⟩ selector body) last := by
  obtain ⟨offset, previous, _⟩ := c
  obtain rfl := hc
  rw [statement]
  split
  · contradiction
  · rename_i heq
    obtain rfl := Option.some.inj heq
    simp at hx
  · rename_i heq
    obtain rfl := Option.some.inj heq
    simp at hx
  · rw [hlooks, if_neg Bool.false_ne_true]
    exact hhead.bind fun _ => hbody.bind fun _ => ⟨_, rfl⟩

/-! ## Blocks -/

/-- Statements end at the end of the text or in front of a closing brace. -/
theorem reaches_statements_of_end (h : c.Faces rest) (hrest : rest = [] ∨ ∃ t, rest = '\x7d' :: t) :
    Reaches (c.statements isBlock) [] c.skipTrivia := by
  rw [statements]
  obtain rfl | ⟨t, rfl⟩ := hrest
  · have hnil := h.rest_skipTrivia Lexeme.isSolid_nil
    simp only [peek?, hnil]
    exact ⟨_, rfl⟩
  · have hbrace := h.peek?_skipTrivia (Lexeme.isSolid_cons (by decide) (by decide))
    simp only [hbrace]
    exact ⟨_, rfl⟩

theorem reaches_statements_of_first {first : Statement} (hpeek : c.skipTrivia.peek? = some x)
    (hx : x ≠ '\x7d') (hfirst : Reaches (c.skipTrivia.statement isBlock) first next)
    (hmore : Reaches (next.statements isBlock) body last) :
    Reaches (c.statements isBlock) (first :: body) last := by
  rw [statements]
  simp only [hpeek]
  exact hfirst.bind fun _ => hmore.bind fun _ => ⟨_, rfl⟩

theorem reaches_block (hbody : Reaches (c.statements true) body next)
    (hnext : next.Faces ('\x7d' :: rest)) :
    ∃ last, Reaches c.block body last ∧ last.rest = rest := by
  obtain ⟨last, hclose, hlast⟩ := hnext.expect (Lexeme.isSolid_cons (by decide) (by decide))
  refine ⟨last, ?_, hlast⟩
  rw [block]
  exact hbody.bind fun _ => hclose.bind fun _ => ⟨_, rfl⟩

end Cursor

/-! ## Clauses -/

section

variable (also : Place → Term → Bool)

/-- A clause is read as its tree, up to its own end. -/
def ReadsClause (isBlock : Bool) (clause : Clause) : Prop :=
  ∀ (c : Cursor) rest, c.rest = clause.text also ++ rest →
    ∃ s next, Reaches (c.statement isBlock) s next ∧ s.unplaced = clause.tree ∧ next.rest = rest

variable {also : Place → Term → Bool} {isBlock : Bool}

/-- The first character of a clause starts no comment and closes no block. -/
theorem Clause.IsWellFormed.exists_head {clause : Clause} (h : clause.IsWellFormed isBlock)
    (also : Place → Term → Bool) (rest : List Char) :
    ∃ x t, clause.text also ++ rest = x :: t ∧ x ≠ '\x7d' ∧ Lexeme.IsSolid (x :: t) := by
  cases h with
  | assign | warn | debug | defineMixin | includeMixin =>
    exact ⟨_, _, rfl, by decide, Lexeme.isSolid_cons (by decide) (by decide)⟩
  | @rule _ selector body hselector hbody =>
    obtain ⟨x, t, hx⟩ := List.exists_cons_of_ne_nil hselector.ne_nil
    refine ⟨x, t ++ ' ' :: '{' :: Clause.lines also body ++ ['\n', '\x7d'] ++ rest, ?_, ?_, ?_⟩
    · rw [Clause.text, hx]
      rfl
    · rintro rfl
      have hmark := hselector.noMark '\x7d' (by rw [hx]; exact List.mem_cons_self ..)
      contradiction
    · have hsolid := hselector.isSolid ('{' :: Clause.lines also body ++ ['\n', '\x7d'] ++ rest)
      rw [hx] at hsolid
      simpa using hsolid
  | @declaration property value hname hvalue hbrace =>
    have hopens := hname.opens.append (':' :: ' ' :: value.print also ++ [';'] ++ rest)
    have hsolid := hopens.isSolid
    obtain ⟨x, t, htext, hx, -⟩ := hopens
    rw [htext] at hsolid
    refine ⟨x, t, ?_, Lexeme.ne_of_startsItem hx (by decide), hsolid⟩
    rw [← htext, Clause.text]
    simp

/-- A clause and what is read behind it. -/
theorem reaches_statements_of_clause {clause : Clause} (h : clause.IsWellFormed isBlock)
    (hreads : ReadsClause also isBlock clause) {c : Cursor} {more rest : List Char}
    {trees : List Statement} (hc : c.Faces (clause.text also ++ more))
    (hmore : ∀ d : Cursor, d.Faces more → ∃ ss last, Reaches (d.statements isBlock) ss last ∧
      Statement.unplacedAll ss = trees ∧ last.Faces rest) :
    ∃ ss last, Reaches (c.statements isBlock) ss last ∧
      Statement.unplacedAll ss = clause.tree :: trees ∧ last.Faces rest := by
  obtain ⟨x, t, htext, hx, hsolid⟩ := h.exists_head also more
  rw [htext] at hc
  have hrest := hc.rest_skipTrivia hsolid
  rw [← htext] at hrest
  obtain ⟨s, next, hs, htree, hnext⟩ := hreads c.skipTrivia more hrest
  obtain ⟨ss, last, hss, htrees, hlast⟩ := hmore next (Cursor.faces_of_rest_eq hnext)
  refine ⟨s :: ss, last, ?_, ?_, hlast⟩
  · exact Cursor.reaches_statements_of_first (hc.peek?_skipTrivia hsolid) hx hs hss
  · rw [Statement.unplacedAll, htree, htrees]

theorem reaches_lines {clauses : List Clause} (h : ∀ clause ∈ clauses, clause.IsWellFormed isBlock)
    (hreads : ∀ clause ∈ clauses, ReadsClause also isBlock clause) {rest : List Char}
    (hrest : rest = [] ∨ ∃ t, rest = '\n' :: '\x7d' :: t) (c : Cursor)
    (hc : c.Faces (Clause.lines also clauses ++ rest)) :
    ∃ ss last, Reaches (c.statements isBlock) ss last ∧
      Statement.unplacedAll ss = Clause.trees clauses ∧ last.Faces rest := by
  induction clauses generalizing c with
  | nil =>
    refine ⟨[], c.skipTrivia, ?_, rfl, hc.skipTrivia⟩
    obtain rfl | ⟨t, rfl⟩ := hrest
    · exact Cursor.reaches_statements_of_end hc (.inl rfl)
    · exact Cursor.reaches_statements_of_end (hc.of_blank (by decide)) (.inr ⟨t, rfl⟩)
  | cons clause clauses ih =>
    simp only [List.mem_cons, forall_eq_or_imp] at h hreads
    rw [Clause.lines, List.append_assoc, List.cons_append] at hc
    exact reaches_statements_of_clause h.1 hreads.1 (hc.of_blank (by decide)) (ih h.2 hreads.2)

/-- A printed body is read as a block, up to its closing brace. -/
theorem reaches_block_lines {body : List Clause} (h : ∀ clause ∈ body, clause.IsWellFormed true)
    (hreads : ∀ clause ∈ body, ReadsClause also true clause) {c : Cursor} {rest : List Char}
    (hc : c.rest = Clause.lines also body ++ '\n' :: '\x7d' :: rest) :
    ∃ ss last, Reaches c.block ss last ∧ Statement.unplacedAll ss = Clause.trees body ∧
      last.rest = rest := by
  obtain ⟨ss, next, hss, htrees, hnext⟩ :=
    reaches_lines h hreads (.inr ⟨rest, rfl⟩) c (Cursor.faces_of_rest_eq hc)
  obtain ⟨last, hblock, hlast⟩ := Cursor.reaches_block hss (hnext.of_blank (by decide))
  exact ⟨ss, last, hblock, htrees, hlast⟩

theorem isName_keyword : IsName "warn" ∧ IsName "debug" ∧ IsName "mixin" ∧ IsName "include" := by
  have hname {s : String} (hne : s.toList ≠ [])
      (h : s.toList.all (fun c => c.toNat < 0x80 && c.isAlpha) = true) : IsName s :=
    Lexeme.isName_of_isAlpha hne fun c hc => by simpa using List.all_eq_true.mp h c hc
  exact ⟨hname (by decide) (by decide), hname (by decide) (by decide),
    hname (by decide) (by decide), hname (by decide) (by decide)⟩

/-- Every clause is read as its tree, up to its own end. -/
theorem Clause.IsWellFormed.reads {clause : Clause} (h : clause.IsWellFormed isBlock) :
    ReadsClause also isBlock clause := by
  obtain ⟨hwarn, hdebug, hmixin, hinclude⟩ := isName_keyword
  induction h with
  | @assign isBlock name value hname hvalue =>
    intro c rest hc
    rw [Clause.text, List.append_assoc, List.singleton_append] at hc
    obtain ⟨range, e, next, hassign, htree, hnext⟩ := Cursor.reaches_assignment hname hvalue hc
    rw [← Cursor.statement_of_dollar hc] at hassign
    exact ⟨.assign range name e, next, hassign,
      by rw [Statement.unplaced, htree, Clause.tree], hnext⟩
  | @warn isBlock value hvalue =>
    intro c rest hc
    have htext : c.rest = '@' :: ("warn".toList ++ ' ' :: (value.print also ++ ';' :: rest)) := by
      rw [hc, Clause.text]
      simp
    obtain ⟨afterName, hkeyword, hafter⟩ := Cursor.reaches_keyword hwarn htext
    obtain ⟨range, e, next, hmessage, htree, hnext⟩ :=
      Cursor.reaches_message hvalue hafter c.offset
    exact ⟨.warn range e, next, Cursor.reaches_statement_of_warn htext hkeyword hmessage,
      by rw [Statement.unplaced, htree, Clause.tree], hnext⟩
  | @debug isBlock value hvalue =>
    intro c rest hc
    have htext : c.rest = '@' :: ("debug".toList ++ ' ' :: (value.print also ++ ';' :: rest)) := by
      rw [hc, Clause.text]
      simp
    obtain ⟨afterName, hkeyword, hafter⟩ := Cursor.reaches_keyword hdebug htext
    obtain ⟨range, e, next, hmessage, htree, hnext⟩ :=
      Cursor.reaches_message hvalue hafter c.offset
    exact ⟨.debug range e, next, Cursor.reaches_statement_of_debug htext hkeyword hmessage,
      by rw [Statement.unplaced, htree, Clause.tree], hnext⟩
  | @defineMixin isBlock name body hname hbody ih =>
    intro c rest hc
    have htext : c.rest = '@' :: ("mixin".toList ++ ' ' :: (name.toList ++
        ' ' :: '{' :: (Clause.lines also body ++ '\n' :: '\x7d' :: rest))) := by
      rw [hc, Clause.text]
      simp
    obtain ⟨afterName, hkeyword, hafter⟩ := Cursor.reaches_keyword hmixin htext
    obtain ⟨afterHead, hhead, hafter⟩ := Cursor.reaches_mixinHead hname hafter
    obtain ⟨ss, next, hblock, htrees, hnext⟩ := reaches_block_lines hbody ih hafter
    exact ⟨.defineMixin ⟨c.offset, next.offset⟩ name ss, next,
      Cursor.reaches_statement_of_mixin htext hkeyword hhead hblock,
      by rw [Statement.unplaced, htrees, Clause.tree], hnext⟩
  | @includeMixin isBlock name hname =>
    intro c rest hc
    have htext : c.rest = '@' :: ("include".toList ++ ' ' :: (name.toList ++ ';' :: rest)) := by
      rw [hc, Clause.text]
      simp
    obtain ⟨afterName, hkeyword, hafter⟩ := Cursor.reaches_keyword hinclude htext
    obtain ⟨range, next, hinclusion, hnext⟩ := Cursor.reaches_inclusion hname hafter c.offset
    exact ⟨.includeMixin range name, next,
      Cursor.reaches_statement_of_include htext hkeyword hinclusion, rfl, hnext⟩
  | @rule isBlock selector body hselector hbody ih =>
    intro c rest hc
    have htext : c.rest = selector.toList ++
        ' ' :: '{' :: (Clause.lines also body ++ '\n' :: '\x7d' :: rest) := by
      rw [hc, Clause.text]
      simp
    obtain ⟨afterHead, hhead, hafter⟩ := Cursor.reaches_ruleHead hselector htext
    obtain ⟨ss, next, hblock, htrees, hnext⟩ := reaches_block_lines hbody ih hafter
    have hlooks : Lexeme.looksLikeDeclaration c.rest = false := by
      rw [htext]
      exact hselector.looksLikeDeclaration_eq_false _
    obtain ⟨x, t, hx⟩ := List.exists_cons_of_ne_nil hselector.ne_nil
    have hstart : x ∉ ['$', '@'] := by
      have hstart := hselector.start x (by rw [hx]; rfl)
      simpa using hstart
    rw [hx, List.cons_append] at htext
    exact ⟨.rule ⟨c.offset, next.offset⟩ selector ss, next,
      Cursor.reaches_statement_of_rule htext hstart (by simp [hlooks]) hhead hblock,
      by rw [Statement.unplaced, htrees, Clause.tree], hnext⟩
  | @declaration property value hname hvalue hbrace =>
    intro c rest hc
    rw [Clause.text, List.append_assoc, List.singleton_append] at hc
    obtain ⟨range, e, next, hdeclaration, htree, hnext⟩ :=
      Cursor.reaches_declaration hname hvalue hc
    have hplain : '{' ∉ property.toList ++ ':' :: ' ' :: value.print also := by
      have hprint : '{' ∉ value.print also :=
        Place.brace_not_mem_enclose also (hvalue.brace_not_mem also hbrace) .whole value
      simp [hname.brace_not_mem, hprint]
    have hlooks : Lexeme.looksLikeDeclaration c.rest = true := by
      rw [hc]
      exact Lexeme.looksLikeDeclaration_of_not_mem hplain rest
    obtain ⟨x, t, hx, hstart, -⟩ := hname.exists_head
    rw [hx, List.cons_append] at hc
    rw [← Cursor.statement_of_declaration hc hstart hlooks] at hdeclaration
    exact ⟨.declaration range property e, next, hdeclaration,
      by rw [Statement.unplaced, htree, Clause.tree], hnext⟩

end

/-- A text is accepted if its statements come to its end. -/
theorem parse_of_reaches {source : String} {ss : List Statement} {last : Cursor}
    (h : Reaches ((Cursor.start source.toList).statements false) ss last) (hlast : last.Faces []) :
    parse source = .ok ss := by
  obtain ⟨_, h⟩ := h
  have hend : last.skipTrivia.peek? = none := by
    rw [Cursor.peek?, hlast.rest_skipTrivia Lexeme.isSolid_nil]
    rfl
  rw [parse, h]
  simp only [bind, Except.bind, hend]
  rfl

/-- The parser undoes printing: it accepts a printed stylesheet and finds the clauses again, each
term where it stood, with whichever parentheses it was printed. -/
theorem parse_print (also : Place → Term → Bool) {clauses : List Clause}
    (h : ∀ clause ∈ clauses, clause.IsWellFormed false) :
    ∃ ss, parse (Clause.print also clauses) = .ok ss ∧
      Statement.unplacedAll ss = Clause.trees clauses := by
  have hread : ∃ ss last, Reaches ((Cursor.start (Clause.print also clauses).toList).statements
      false) ss last ∧ Statement.unplacedAll ss = Clause.trees clauses ∧ last.Faces [] := by
    have hreads : ∀ clause ∈ clauses, ReadsClause also false clause := fun clause hclause =>
      (h clause hclause).reads
    cases clauses with
    | nil => exact reaches_lines h hreads (.inl rfl) _ (Cursor.faces_of_rest_eq rfl)
    | cons clause clauses =>
      simp only [List.mem_cons, forall_eq_or_imp] at h hreads
      apply reaches_statements_of_clause h.1 hreads.1
      · apply Cursor.faces_of_rest_eq
        rw [Clause.print, String.toList_ofList]
        rfl
      · intro d hd
        exact reaches_lines h.2 hreads.2 (.inl rfl) d (by rwa [List.append_nil])
  obtain ⟨ss, last, hss, htrees, hlast⟩ := hread
  exact ⟨ss, parse_of_reaches hss hlast, htrees⟩

/-- A product of a difference, and a list with a string and a negation in it. -/
theorem parse_print_rule :
    let clauses : List Clause := [
      .assign "x" (.binary .multiply
        (.binary .subtract (.number ⟨['1'], [], []⟩) (.word "-a")) (.var "y")),
      .rule "a" [.declaration "b"
        (.list [.quoted "\"", .negate (.number ⟨[], ['5'], ['p', 'x']⟩)])]]
    (∀ clause ∈ clauses, clause.IsWellFormed false) ∧
      ∃ ss, parse "$x: (1 - -a) * $y;\na \x7b\nb: \"\\\"\" -.5px;\n\x7d" = .ok ss ∧
        Statement.unplacedAll ss = Clause.trees clauses := by
  intro clauses
  have hname : IsName "x" ∧ IsName "-a" ∧ IsName "y" ∧ IsName "b" := by
    refine ⟨⟨by decide, ?_⟩, ⟨by decide, ?_⟩, ⟨by decide, ?_⟩, ⟨by decide, ?_⟩⟩ <;> decide +kernel
  obtain ⟨hx, ha, hy, hb⟩ := hname
  have hone : Lexeme.Number.IsLiteral ⟨['1'], [], []⟩ :=
    ⟨by simp, by simp, rfl, .inr (by simp)⟩
  have hhalf : Lexeme.Number.IsLiteral ⟨[], ['5'], ['p', 'x']⟩ :=
    ⟨by simp, by simp, rfl, .inr (by simp)⟩
  have hselector : IsSelector "a" := by
    refine ⟨by decide, by decide, List.forall_mem_singleton.mpr (by decide), ?_, by decide⟩
    intro c hc
    obtain rfl : 'a' = c := Option.some.inj hc
    decide
  have hclauses : ∀ clause ∈ clauses, clause.IsWellFormed false := by
    simp only [clauses, List.forall_mem_cons, List.not_mem_nil, false_implies, implies_true,
      and_true]
    refine ⟨.assign hx (.binary _ (.binary _ (.number hone) (.name ha)) (.var hy)),
      .rule hselector ?_⟩
    simp only [List.forall_mem_singleton]
    refine .declaration hb (.list (by decide) ?_) (by decide)
    simp only [List.forall_mem_cons, List.not_mem_nil, false_implies, implies_true, and_true]
    exact ⟨.quoted _, .negate (.number hhalf)⟩
  have htext : Clause.print (fun _ _ => false) clauses =
      "$x: (1 - -a) * $y;\na \x7b\nb: \"\\\"\" -.5px;\n\x7d" := by decide +kernel
  refine ⟨hclauses, ?_⟩
  rw [← htext]
  exact parse_print (fun _ _ => false) hclauses

end Stylesheet
