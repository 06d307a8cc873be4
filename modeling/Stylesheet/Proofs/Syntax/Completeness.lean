import Stylesheet.Proofs.Syntax.Heads
import Stylesheet.Proofs.Syntax.StatementRoundTrip
import Stylesheet.Proofs.Syntax.StatementSoundness

/-!
# What stands is found

The other direction of soundness: the parser finds what the grammar derives, with the same ranges,
if nothing follows with which it would go on. So a text is accepted exactly if its statements stand
one behind another up to its end (`parse_eq_ok_iff`).
-/

namespace Stylesheet

open Cursor (Reaches)

/-! ## Lexemes -/

namespace Cursor

variable {c d : Cursor} {x : Char}

theorem Names.reaches {name : String} (h : c.Names name d) (expected : Expected) :
    Reaches (c.ident expected) name d := by
  obtain ⟨hne, rfl, rfl⟩ := h
  simp only [ident, ident?, hne, dite_false]
  exact ⟨_, rfl⟩

theorem Passes.reaches (h : c.Passes x d) : Reaches (c.expect x) () d := by
  obtain ⟨hpeek, rfl⟩ := h
  simp only [expect, hpeek, dite_true]
  exact ⟨_, rfl⟩

theorem Passes.behind_trivia (h : c.Passes x d) : c.skipTrivia.Passes x d :=
  passes_of_skipTrivia_eq h c.skipTrivia_skipTrivia.symm

theorem reaches_string {quote : Char} {text : List Char} {length : Nat} (hne : c.rest ≠ [])
    (h : Lexeme.stringRest quote (c.rest.drop 1) = .closed text length) :
    Reaches (c.string quote hne)
      (.text ⟨c.offset, (c.skip (1 + length)).offset⟩ (String.ofList text) true)
      (c.skip (1 + length)) := by
  rw [string]
  split
  · rename_i heq
    obtain ⟨rfl, rfl⟩ := Lexeme.StringRest.closed.inj (h.symm.trans heq)
    exact ⟨_, rfl⟩
  · rename_i heq
    rw [h] at heq
    contradiction

theorem number?_of_peek? (h : c.peek? = some x) (hdigit : x.isDigit = false) (hpoint : x ≠ '.') :
    c.number? = none :=
  number?_eq_none (rest_of_peek? h) hdigit hpoint

end Cursor

/-- The parser finds the leaf that stands at a cursor. -/
theorem Expr.IsLeaf.reaches {e : Expr} {a b : Cursor} (h : e.IsLeaf a b) :
    Reaches a.primary e b := by
  cases h with
  | number hpresent hb =>
    subst hb
    rw [Cursor.primary, Cursor.number?]
    simp only [Lexeme.Number.length_pos hpresent, hpresent, and_self, dite_true]
    exact ⟨_, rfl⟩
  | @string _ _ quote text length hquote hpeek hrest hb =>
    subst hb
    have hne := Cursor.rest_ne_nil_of_peek? hpeek
    obtain rfl | rfl := hquote
    · have hnumber := Cursor.number?_of_peek? hpeek (by decide) (by decide)
      rw [Cursor.primary_of_quote hnumber (Cursor.rest_of_peek? hpeek) hne]
      exact Cursor.reaches_string hne hrest
    · have hnumber := Cursor.number?_of_peek? hpeek (by decide) (by decide)
      rw [Cursor.primary_of_apostrophe hnumber (Cursor.rest_of_peek? hpeek) hne]
      exact Cursor.reaches_string hne hrest
  | var hpeek hname =>
    have hnumber := Cursor.number?_of_peek? hpeek (by decide) (by decide)
    rw [Cursor.primary_of_dollar hnumber (Cursor.rest_of_peek? hpeek), Cursor.reference]
    exact (hname.reaches _).bind fun _ => ⟨_, rfl⟩
  | hash hpeek hb =>
    subst hb
    have hnumber := Cursor.number?_of_peek? hpeek (by decide) (by decide)
    rw [Cursor.primary_of_hash hnumber (Cursor.rest_of_peek? hpeek)
      (Cursor.rest_ne_nil_of_peek? hpeek)]
    exact ⟨_, rfl⟩
  | word hname =>
    obtain ⟨x, s, hrest, hstart⟩ :=
      Lexeme.exists_of_startsIdent (Lexeme.startsIdent_of_ident hname.1)
    have hx : x.isDigit = false ∧ x ∉ ['.', '"', '\'', '$', '#', '('] := by
      obtain hx | ⟨rfl, -⟩ := hstart
      · exact ⟨Lexeme.isDigit_eq_false_of_isIdentStart hx,
          Lexeme.not_mem_of_isIdentStart hx (by decide)⟩
      · decide
    rw [List.mem_cons, not_or] at hx
    have hnumber := Cursor.number?_eq_none hrest hx.1 hx.2.1
    rw [Cursor.primary_of_word hnumber hrest hx.2.2, Cursor.word]
    exact (hname.reaches _).bind fun _ => ⟨_, rfl⟩

/-! ## Where levels end -/

namespace Cursor

/-- No operation goes on behind a cursor. -/
structure EndsSum (b : Cursor) : Prop where
  multiplicative : b.skipTrivia.multiplicative? = none
  additive : b.skipTrivia.additive? = none

/-- Neither an operation nor a list goes on behind a cursor. -/
structure EndsList (b : Cursor) : Prop extends EndsSum b where
  startsItem : b.skipTrivia.peek?.any Lexeme.startsItem = false

theorem multiplicative?_of_additive? {c : Cursor} {operator : Operator}
    (h : c.additive? = some operator) : c.multiplicative? = none := by
  rw [multiplicative?]
  split
  · simp_all [additive?]
  · simp_all [additive?]
  · rfl

theorem multiplicative?_of_startsItem {c : Cursor}
    (h : c.peek?.any Lexeme.startsItem = true) : c.multiplicative? = none := by
  rw [multiplicative?]
  split
  · rename_i hpeek
    rw [hpeek] at h
    exact absurd rfl (Lexeme.ne_of_startsItem h (by decide))
  · rename_i hpeek
    rw [hpeek] at h
    exact absurd rfl (Lexeme.ne_of_startsItem h (by decide))
  · rfl

/-- An expression ends in front of a closing character. -/
theorem endsList_of_peek? {b : Cursor} {x : Char} (h : b.skipTrivia.peek? = some x)
    (hx : x ∈ [')', ';', '\x7d']) : b.EndsList := by
  simp only [List.mem_cons, List.not_mem_nil, or_false] at hx
  obtain rfl | rfl | rfl := hx <;>
    exact ⟨⟨by simp [multiplicative?, h], by simp [additive?, h]⟩, by
      rw [h, Option.any_some, Lexeme.startsItem_eq (by decide)]
      decide⟩

theorem Passes.endsList {x : Char} {b c : Cursor} (h : b.Passes x c)
    (hx : x ∈ [')', ';', '\x7d']) : b.EndsList :=
  endsList_of_peek? h.1 hx

theorem reaches_items_of_endsList {b : Cursor} (h : b.EndsList) :
    Reaches b.skipTrivia.items [] b.skipTrivia := by
  have hstop : b.skipTrivia.skipTrivia.peek?.any Lexeme.startsItem = false := by
    rw [skipTrivia_skipTrivia]
    exact h.startsItem
  have hitems := reaches_items_of_none hstop
  rwa [skipTrivia_skipTrivia] at hitems

end Cursor

/-! ## Levels -/

namespace Expr

/-- The parser of a level finds an expression. The left operand of an operation is found before it
is known to be one, so what the level of an operation makes of an expression is said of what it
goes on to. -/
def IsFound (e : Expr) (a b : Cursor) : Level → Prop
  | .primary => Reaches a.primary e b
  | .factor => ∀ c : Cursor, c.skipTrivia = a → Reaches c.factor e b
  | .product => ∀ c : Cursor, c.skipTrivia = a → ∀ value last,
      Reaches (b.productFrom e) value last → Reaches c.product value last
  | .sum => ∀ c : Cursor, c.skipTrivia = a → b.skipTrivia.multiplicative? = none →
      ∀ value last, Reaches (b.skipTrivia.sumFrom e) value last → Reaches c.sum value last
  | .list => ∀ c : Cursor, c.skipTrivia = a → b.EndsList → Reaches c.expr e b.skipTrivia

variable {e left right : Expr} {a b c d : Cursor}

theorem IsFound.reaches_product (h : e.IsFound a b .product) (hc : c.skipTrivia = a)
    (hend : b.skipTrivia.multiplicative? = none) : Reaches c.product e b.skipTrivia :=
  h c hc e b.skipTrivia (Cursor.reaches_productFrom_of_none hend e)

theorem IsFound.reaches_sum (h : e.IsFound a b .sum) (hc : c.skipTrivia = a) (hend : b.EndsSum) :
    Reaches c.sum e b.skipTrivia := by
  have hmore := Cursor.reaches_sumFrom_of_none (c := b.skipTrivia)
    (by rw [Cursor.skipTrivia_skipTrivia]; exact hend.additive) e
  rw [Cursor.skipTrivia_skipTrivia] at hmore
  exact h c hc hend.multiplicative e b.skipTrivia hmore

theorem IsFound.factor (h : e.IsFound a b .primary) (hsign : a.isNegation = false) :
    e.IsFound a b .factor := by
  rintro c rfl
  exact Cursor.reaches_factor_of_primary hsign h

theorem IsFound.product (h : e.IsFound a b .factor) : e.IsFound a b .product :=
  fun c hc _ _ hmore => Cursor.reaches_product (h c hc) hmore

theorem IsFound.sum (h : e.IsFound a b .product) : e.IsFound a b .sum :=
  fun _ hc hend _ _ hmore => Cursor.reaches_sum (h.reaches_product hc hend) hmore

theorem IsFound.list (h : e.IsFound a b .sum) : e.IsFound a b .list := by
  intro c hc hend
  rw [Cursor.expr]
  exact (h.reaches_sum hc hend.toEndsSum).bind fun _ =>
    (Cursor.reaches_items_of_endsList hend).bind fun _ => ⟨_, rfl⟩

theorem IsFound.multiply {operator : Operator} (hleft : left.IsFound a b .product)
    (ho : b.skipTrivia.multiplicative? = some operator)
    (hright : right.IsFound (b.skipTrivia.skip 1).skipTrivia d .factor)
    (hjoin : left.join operator right = e) : e.IsFound a d .product := by
  intro c hc value last hmore
  rw [← hjoin] at hmore
  exact hleft c hc value last (Cursor.reaches_productFrom_of_operator ho (hright _ rfl) hmore)

theorem IsFound.add {operator : Operator} (hleft : left.IsFound a b .sum)
    (ho : b.skipTrivia.additive? = some operator)
    (hright : right.IsFound (b.skipTrivia.skip 1).skipTrivia d .product)
    (hjoin : left.join operator right = e) : e.IsFound a d .sum := by
  intro c hc hend value last hmore
  rw [← hjoin] at hmore
  have hproduct := hright.reaches_product rfl hend
  rw [← b.skipTrivia_skipTrivia] at ho hproduct
  have hsum := Cursor.reaches_sumFrom_of_operator ho hproduct hmore
  rw [b.skipTrivia_skipTrivia] at ho
  exact hleft c hc (Cursor.multiplicative?_of_additive? ho) value last hsum

theorem IsFound.group (hopen : a.peek? = some '(')
    (h : e.IsFound (a.skip 1).skipTrivia b .list) (hclose : b.Passes ')' c) :
    (e.withRange (a.rangeTo c)).IsFound a c .primary :=
  Cursor.reaches_primary_of_parenthesis (Cursor.rest_of_peek? hopen)
    (h _ rfl (hclose.endsList (by decide))) hclose.behind_trivia.reaches

theorem IsFound.negate (hsign : a.isNegation = true)
    (h : e.IsFound (a.skip 1).skipTrivia b .factor) (hstop : e.range.stop = b.offset) :
    (Expr.negate (a.rangeTo b) e).IsFound a b .factor := by
  rintro c rfl
  have hreach := Cursor.reaches_factor_of_negation hsign (h _ rfl)
  rwa [hstop] at hreach

/-- Items are found up to the end of the list. -/
def AreFound (items : List Expr) (a b : Cursor) : Prop :=
  b.EndsList → a.EndsSum ∧ Reaches a.skipTrivia.items items b.skipTrivia

theorem IsFound.cons {item : Expr} {items : List Expr} (hoperator : a.skipTrivia.additive? = none)
    (hstart : a.skipTrivia.peek?.any Lexeme.startsItem = true)
    (hitem : item.IsFound a.skipTrivia b .sum) (hitems : AreFound items b c) :
    AreFound (item :: items) a c := by
  intro hend
  obtain ⟨hsum, hmore⟩ := hitems hend
  refine ⟨⟨Cursor.multiplicative?_of_startsItem hstart, hoperator⟩, ?_⟩
  have hfirst := hitem.reaches_sum (c := a.skipTrivia.skipTrivia) (by simp) hsum
  rw [Cursor.items, if_pos (by rwa [Cursor.skipTrivia_skipTrivia])]
  exact hfirst.bind fun _ => hmore.bind fun _ => ⟨_, rfl⟩

mutual

/-- The parser of its level finds the expression that stands at a cursor. -/
theorem Stands.isFound {level : Level} {e : Expr} {a b : Cursor} :
    e.Stands level a b → e.IsFound a b level
  | .leaf h => h.reaches
  | .group hopen h hclose => IsFound.group hopen h.isFound hclose
  | .primary hsign h => IsFound.factor h.isFound hsign
  | .negate hsign h => IsFound.negate hsign h.isFound (by rw [h.range_eq]; rfl)
  | .factor h => IsFound.product h.isFound
  | .multiply hleft ho hright => IsFound.multiply hleft.isFound ho hright.isFound
      (Cursor.join_eq hleft.range_eq hright.range_eq
        (le_trans hleft.le (Cursor.le_behind_operator _))
        (le_trans (Cursor.le_behind_operator _) hright.le))
  | .product h => IsFound.sum h.isFound
  | .add hleft ho hright => IsFound.add hleft.isFound ho hright.isFound
      (Cursor.join_eq hleft.range_eq hright.range_eq
        (le_trans hleft.le (Cursor.le_behind_operator _))
        (le_trans (Cursor.le_behind_operator _) hright.le))
  | .sum h => IsFound.list h.isFound
  | @Stands.list first second more a b c hfirst hmore => by
    intro start hstart hend
    obtain ⟨hsum, hitems⟩ := hmore.areFound hend
    obtain ⟨final, d, hfinal, hrange, hbd⟩ := Cursor.Items.exists_getLast? hmore
    have hcover : first.range.cover final.range = a.rangeTo c := by
      rw [hfirst.range_eq, hrange, Cursor.cover_rangeTo (le_trans hfirst.le hbd) hmore.le]
    rw [Cursor.expr]
    refine (hfirst.isFound.reaches_sum hstart hsum).bind fun _ => hitems.bind fun _ => ?_
    simp only [hfinal, hcover]
    exact ⟨_, rfl⟩

theorem Items.areFound {items : List Expr} {a b : Cursor} : Items items a b → AreFound items a b
  | .nil => fun hend => ⟨hend.toEndsSum, Cursor.reaches_items_of_endsList hend⟩
  | .cons hoperator hstart hitem hitems =>
    IsFound.cons hoperator hstart hitem.isFound hitems.areFound

end

theorem Stands.rangeTo_eq {level : Level} (h : e.Stands level b c) (a : Cursor) :
    (⟨a.offset, e.range.stop⟩ : Range) = a.rangeTo c := by
  rw [h.range_eq]
  rfl

/-- An expression is found by the parser of expressions if nothing follows with which it would go
on. -/
theorem Stands.reaches (h : e.Stands .list c.skipTrivia b) (hend : b.EndsList) :
    Reaches c.expr e b.skipTrivia :=
  h.isFound c rfl hend

end Expr

/-! ## Statements -/

namespace Cursor

variable {a b c d : Cursor} {keyword name : String} {value : Expr}

/-- A value and the semicolon that ends it. -/
theorem reaches_message_of_stands (hvalue : value.Stands .list b.skipTrivia c)
    (hend : c.Passes ';' d) : Reaches (b.message a.offset) (a.rangeTo c, value) d := by
  rw [message, ← hvalue.rangeTo_eq a]
  exact (hvalue.reaches (hend.endsList (by decide))).bind fun _ =>
    hend.behind_trivia.reaches.bind fun _ => ⟨_, rfl⟩

theorem reaches_mixinName_of_names (h : a.skipTrivia.Names name b) :
    Reaches a.mixinName (name, b.offset) b := by
  rw [mixinName]
  exact (h.reaches _).bind fun _ => ⟨_, rfl⟩

theorem EndsDeclaration.endsList (h : a.EndsDeclaration b) : a.EndsList := by
  obtain ⟨hpeek, -⟩ | h := h
  · exact endsList_of_peek? hpeek (by decide)
  · exact h.endsList (by decide)

theorem EndsDeclaration.reaches (h : a.EndsDeclaration b) : Reaches a.declarationEnd () b := by
  rw [declarationEnd]
  obtain ⟨hpeek, rfl⟩ | h := h
  · rw [if_pos hpeek]
    exact ⟨_, rfl⟩
  · rw [if_neg (by rw [h.1]; decide)]
    exact h.behind_trivia.reaches.bind fun _ => ⟨_, rfl⟩

theorem EndsDeclaration.behind_trivia (h : a.EndsDeclaration b) : a.skipTrivia.EndsDeclaration b :=
  h.congr a.skipTrivia_skipTrivia.symm

theorem OpensRule.reaches (h : a.OpensRule name b) : Reaches a.ruleHead name b := by
  obtain ⟨hpeek, hselector, rfl, rfl⟩ := h
  rw [ruleHead]
  simp only [hpeek, dite_true, List.isEmpty_iff, hselector, if_false]
  exact ⟨_, rfl⟩

theorem AtRule.rest_eq (h : a.AtRule keyword b) : a.rest = '@' :: (a.skip 1).rest :=
  rest_of_peek? h.1

end Cursor

namespace Statement

theorem Stands.peek?_ne_none {isBlock : Bool} {s : Statement} {a b : Cursor}
    (h : s.Stands isBlock a b) : a.peek? ≠ none := by
  cases h with
  | assign hpeek _ _ _ _ => simp [hpeek]
  | warn hat _ _ | debug hat _ _ | defineMixin hat _ _ _ _ | includeMixin hat _ _ =>
    simp [hat.1]
  | declaration _ hname _ _ _ =>
    obtain ⟨c, t, hrest, -⟩ := Lexeme.opens_of_ident hname.1
    simp [Cursor.peek?, hrest]
  | rule _ _ _ hopen _ _ =>
    intro hnone
    have hrest : a.rest = [] := List.head?_eq_none_iff.mp hnone
    have hbrace := hopen.1
    simp [Cursor.peek?, hrest] at hbrace

mutual

/-- The parser finds the statement that stands at a cursor. -/
theorem Stands.reaches {isBlock : Bool} {s : Statement} {a b : Cursor} :
    s.Stands isBlock a b → Reaches (a.statement isBlock) s b
  | .assign hpeek hname hcolon hvalue hend => by
    rw [Cursor.statement_of_dollar (Cursor.rest_of_peek? hpeek), Cursor.assignment,
      ← hvalue.rangeTo_eq a]
    exact (hname.reaches _).bind fun _ => hcolon.reaches.bind fun _ =>
      (hvalue.reaches (hend.endsList (by decide))).bind fun _ =>
        hend.behind_trivia.reaches.bind fun _ => ⟨_, rfl⟩
  | .warn hat hvalue hend =>
    Cursor.reaches_statement_of_warn hat.rest_eq (hat.2.reaches _)
      (Cursor.reaches_message_of_stands hvalue hend)
  | .debug hat hvalue hend =>
    Cursor.reaches_statement_of_debug hat.rest_eq (hat.2.reaches _)
      (Cursor.reaches_message_of_stands hvalue hend)
  | .defineMixin hat hname hopen hbody hclose => by
    refine Cursor.reaches_statement_of_mixin hat.rest_eq (hat.2.reaches _) ?_
      (hbody.reaches_block hclose)
    rw [Cursor.mixinHead]
    exact (Cursor.reaches_mixinName_of_names hname).bind fun _ =>
      hopen.reaches.bind fun _ => ⟨_, rfl⟩
  | .includeMixin hat hname hend => by
    refine Cursor.reaches_statement_of_include hat.rest_eq (hat.2.reaches _) ?_
    rw [Cursor.inclusion]
    exact (Cursor.reaches_mixinName_of_names hname).bind fun _ =>
      hend.reaches.bind fun _ => ⟨_, rfl⟩
  | .declaration hlook hname hcolon hvalue hend => by
    obtain ⟨x, s, hrest, hstart⟩ :=
      Lexeme.exists_of_startsIdent (Lexeme.startsIdent_of_ident hname.1)
    have hx : x ∉ ['$', '@'] := by
      obtain hx | ⟨rfl, -⟩ := hstart
      · exact Lexeme.not_mem_of_isIdentStart hx (by decide)
      · decide
    rw [Cursor.statement_of_declaration hrest hx hlook, Cursor.declaration,
      ← hvalue.rangeTo_eq a]
    exact (hname.reaches _).bind fun _ => hcolon.reaches.bind fun _ =>
      (hvalue.reaches hend.endsList).bind fun _ => hend.behind_trivia.reaches.bind fun _ => ⟨_, rfl⟩
  | .rule hsign hat hlook hopen hbody hclose => by
    cases hrest : a.rest with
    | nil =>
      have hpeek := hopen.1
      simp [Cursor.peek?, hrest] at hpeek
    | cons x s =>
      have hx : x ∉ ['$', '@'] := by
        simp only [Cursor.peek?, hrest, List.head?_cons, ne_eq, Option.some.injEq] at hsign hat
        simp [hsign, hat]
      exact Cursor.reaches_statement_of_rule hrest hx hlook hopen.reaches
        (hbody.reaches_block hclose)

/-- The parser finds the statements of a block and the brace behind them. -/
theorem StandAll.reaches_block {statements : List Statement} {a b c : Cursor}
    (h : StandAll true statements a b) (hclose : b.Passes '\x7d' c) :
    Reaches a.block statements c := by
  rw [Cursor.block]
  exact h.reaches.bind fun _ => hclose.reaches.bind fun _ => ⟨_, rfl⟩

theorem StandAll.reaches {isBlock : Bool} {statements : List Statement} {a b : Cursor} :
    StandAll isBlock statements a b → Reaches (a.statements isBlock) statements b
  | .nil hend => by
    rw [Cursor.statements]
    obtain hend | hend := hend
    · simp only [hend]
      exact ⟨_, rfl⟩
    · simp only [hend]
      exact ⟨_, rfl⟩
  | .cons hmore hfirst hrest => by
    cases hpeek : a.skipTrivia.peek? with
    | none => exact absurd hpeek hfirst.peek?_ne_none
    | some x =>
      have hx : x ≠ '\x7d' := fun h => hmore (h ▸ hpeek)
      exact Cursor.reaches_statements_of_first hpeek hx hfirst.reaches hrest.reaches

end

theorem StandAll.skipTrivia_eq {isBlock : Bool} {statements : List Statement} {a b : Cursor}
    (h : StandAll isBlock statements a b) : b.skipTrivia = b := by
  induction statements generalizing a with
  | nil =>
    cases h with
    | nil _ => exact a.skipTrivia_skipTrivia
  | cons first rest ih =>
    cases h with
    | cons _ _ hrest => exact ih hrest

end Statement

/-! ## Whole texts -/

/-- A text is accepted exactly if its statements stand one behind another up to its end. -/
theorem parse_eq_ok_iff {source : String} {statements : List Statement} :
    parse source = .ok statements ↔ ∃ last,
      Statement.StandAll false statements (Cursor.start source.toList) last ∧ last.rest = [] := by
  constructor
  · intro h
    obtain ⟨last, hstands⟩ := parse_stands h
    refine ⟨last, hstands, ?_⟩
    obtain ⟨_, hreach⟩ := hstands.reaches
    rw [parse, hreach] at h
    simp only [bind, Except.bind, hstands.skipTrivia_eq] at h
    split at h
    · contradiction
    · rename_i hend
      rwa [Bool.not_eq_true, Option.isSome_eq_false_iff, Option.isNone_iff_eq_none, Cursor.peek?,
        List.head?_eq_none_iff] at hend
  · rintro ⟨last, hstands, hend⟩
    exact parse_of_reaches hstands.reaches (Cursor.faces_of_rest_eq hend)

end Stylesheet
