import Stylesheet.Proofs.Syntax.PrintedText

/-!
# The levels of expressions

What can stand behind a term, and what it means that the parser of a level reads a text. The left
operands of a chain of operations are read before it is known that they are operands, so a level of
operations is said to go on from a term, not to end behind it.
-/

namespace Stylesheet

open Cursor (Reaches)

/-! ## What stands behind a term -/

/-- A text in front of which an expression ends. -/
def Closes (s : List Char) : Prop := ∃ x t, s = x :: t ∧ (x = ')' ∨ x = ';')

/-- What can stand behind a term that is an operand of an operator of a level, or tighter. -/
inductive Follows (level : Nat) : List Char → Prop
  | closing {s : List Char} (h : Closes s) : Follows level s
  | item {s : List Char} (h : Opens s) : Follows level (' ' :: s)
  | operator {operator : Operator} (h : operator.level ≤ level) (s : List Char) :
      Follows level (' ' :: operator.symbol.toList ++ ' ' :: s)

theorem Follows.mono {m n : Nat} {s : List Char} (h : Follows m s) (hle : m ≤ n) : Follows n s := by
  cases h with
  | closing h => exact .closing h
  | item h => exact .item h
  | operator h s => exact .operator (Nat.le_trans h hle) s

theorem Follows.exists_delimiter {level : Nat} {s : List Char} (h : Follows level s) :
    ∃ x t, s = x :: t ∧ Lexeme.isDelimiter x = true := by
  cases h with
  | closing h =>
    obtain ⟨x, t, rfl, rfl | rfl⟩ := h
    · exact ⟨_, t, rfl, by decide⟩
    · exact ⟨_, t, rfl, by decide⟩
  | item h => exact ⟨_, _, rfl, by decide⟩
  | operator h s => exact ⟨_, _, rfl, by decide⟩

theorem Closes.isSolid {s : List Char} (h : Closes s) : Lexeme.IsSolid s := by
  obtain ⟨x, t, rfl, rfl | rfl⟩ := h
  · exact Lexeme.isSolid_cons (by decide) (by decide)
  · exact Lexeme.isSolid_cons (by decide) (by decide)

namespace Cursor

variable {c next last : Cursor} {e a : Expr} {rest s : List Char}

/-! ## Where operations end -/

/-- The operator behind the left operand of an operation. -/
theorem faces_operator {operator : Operator}
    (h : c.Faces (' ' :: operator.symbol.toList ++ ' ' :: s)) :
    c.skipTrivia.rest = operator.symbol.toList ++ ' ' :: s ∧ (c.skipTrivia.skip 1).Faces s := by
  have hsolid : Lexeme.IsSolid (operator.symbol.toList ++ ' ' :: s) := by
    cases operator
    · exact Lexeme.isSolid_cons (by decide) (by decide)
    · exact Lexeme.isSolid_cons (by decide) (by decide)
    · exact Lexeme.isSolid_cons (by decide) (by decide)
    · exact Lexeme.isSolid_slash (by decide) (by decide)
  have hrest := (h.of_blank (by decide)).rest_skipTrivia hsolid
  refine ⟨hrest, Faces.of_blank (b := ' ') (faces_of_rest_eq ?_) (by decide)⟩
  rw [rest_skip, hrest]
  cases operator <;> rfl

theorem additive?_of_opens (h : c.Faces (' ' :: s)) (hs : Opens s) :
    c.skipTrivia.additive? = none := by
  have hrest : c.skipTrivia.rest = s := (h.of_blank (by decide)).rest_skipTrivia hs.isSolid
  have hprevious : c.skipTrivia.previous = some ' ' := h.previous_skipTrivia (by decide) hs.isSolid
  obtain ⟨d, t, rfl, hd, hhyphen⟩ := hs
  have hplus : d ≠ '+' := Lexeme.ne_of_startsItem hd (by decide)
  by_cases hminus : d = '-'
  · obtain ⟨d', u, rfl, hd'⟩ := hhyphen hminus
    have hbinary : c.skipTrivia.isBinaryMinus = false := by
      simp [isBinaryMinus, peekSecond?, hrest, hprevious, hd']
      decide
    simp [additive?, peek?, hrest, hminus, hbinary]
  · simp [additive?, peek?, hrest, hplus, hminus]

/-- No operator of a sum stands behind an operand of one. -/
theorem additive?_of_follows (h : c.Faces rest) (hrest : Follows 0 rest) :
    c.skipTrivia.additive? = none := by
  cases hrest with
  | closing hclose =>
    have hsolid := hclose.isSolid
    obtain ⟨x, t, rfl, rfl | rfl⟩ := hclose <;> simp [additive?, h.peek?_skipTrivia hsolid]
  | item hopens => exact additive?_of_opens h hopens
  | operator hlevel s =>
    rename_i operator
    cases operator <;> simp [Operator.level] at hlevel

/-- No operator of a product stands behind an operand of a sum. -/
theorem multiplicative?_of_follows (h : c.Faces rest) (hrest : Follows 1 rest) :
    c.skipTrivia.multiplicative? = none := by
  cases hrest with
  | closing hclose =>
    have hsolid := hclose.isSolid
    obtain ⟨x, t, rfl, rfl | rfl⟩ := hclose <;> simp [multiplicative?, h.peek?_skipTrivia hsolid]
  | item hopens =>
    have hrest := (h.of_blank (by decide)).rest_skipTrivia hopens.isSolid
    obtain ⟨d, t, rfl, hd, -⟩ := hopens
    have hstar : d ≠ '*' := Lexeme.ne_of_startsItem hd (by decide)
    have hslash : d ≠ '/' := Lexeme.ne_of_startsItem hd (by decide)
    simp [multiplicative?, peek?, hrest, hstar, hslash]
  | operator hlevel s =>
    rename_i operator
    have hrest := (faces_operator h).1
    cases operator with
    | add => simp [multiplicative?, peek?, hrest, Operator.symbol]
    | subtract => simp [multiplicative?, peek?, hrest, Operator.symbol]
    | multiply => simp [Operator.level] at hlevel
    | divide => simp [Operator.level] at hlevel

theorem reaches_sumFrom_of_none (h : c.skipTrivia.additive? = none) (left : Expr) :
    Reaches (c.sumFrom left) left c.skipTrivia := by
  rw [sumFrom]
  split
  · exact ⟨_, rfl⟩
  · simp_all

theorem reaches_productFrom_of_none (h : c.skipTrivia.multiplicative? = none) (left : Expr) :
    Reaches (c.productFrom left) left c.skipTrivia := by
  rw [productFrom]
  split
  · exact ⟨_, rfl⟩
  · simp_all

theorem reaches_items_of_none (h : c.skipTrivia.peek?.any Lexeme.startsItem = false) :
    Reaches c.items [] c.skipTrivia := by
  rw [items, if_neg (by simp [h])]
  exact ⟨_, rfl⟩

theorem reaches_sumFrom_of_follows (h : c.Faces rest) (hrest : Follows 0 rest) (left : Expr) :
    Reaches (c.sumFrom left) left c.skipTrivia :=
  reaches_sumFrom_of_none (additive?_of_follows h hrest) left

theorem reaches_productFrom_of_follows (h : c.Faces rest) (hrest : Follows 1 rest) (left : Expr) :
    Reaches (c.productFrom left) left c.skipTrivia :=
  reaches_productFrom_of_none (multiplicative?_of_follows h hrest) left

/-! ## Operators -/

theorem additive?_of_faces {operator : Operator} (hlevel : operator.level = 1)
    (h : next.Faces (' ' :: operator.symbol.toList ++ ' ' :: s)) :
    next.skipTrivia.additive? = some operator := by
  have hrest := (faces_operator h).1
  cases operator with
  | add => simp [additive?, peek?, hrest, Operator.symbol]
  | subtract =>
    have hminus : next.skipTrivia.isBinaryMinus = true := by
      have hblank : Text.isBlank ' ' = true := by decide
      simp [isBinaryMinus, peekSecond?, hrest, Operator.symbol, hblank]
    simp [additive?, peek?, hrest, Operator.symbol, hminus]
  | multiply => contradiction
  | divide => contradiction

theorem multiplicative?_of_faces {operator : Operator} (hlevel : operator.level = 2)
    (h : next.Faces (' ' :: operator.symbol.toList ++ ' ' :: s)) :
    next.skipTrivia.multiplicative? = some operator := by
  have hrest := (faces_operator h).1
  cases operator with
  | add => contradiction
  | subtract => contradiction
  | multiply => simp [multiplicative?, peek?, hrest, Operator.symbol]
  | divide => simp [multiplicative?, peek?, hrest, Operator.symbol]

theorem reaches_sumFrom_of_operator {operator : Operator} {left right : Expr}
    (hoperator : c.skipTrivia.additive? = some operator)
    (hright : Reaches (c.skipTrivia.skip 1).product right next)
    (hmore : Reaches (next.sumFrom (left.join operator right)) a last) :
    Reaches (c.sumFrom left) a last := by
  rw [sumFrom]
  split
  · simp_all
  · rename_i operator' h
    obtain rfl := Option.some.inj (hoperator.symm.trans h)
    exact hright.bind fun _ => hmore.bind fun _ => ⟨_, rfl⟩

theorem reaches_productFrom_of_operator {operator : Operator} {left right : Expr}
    (hoperator : c.skipTrivia.multiplicative? = some operator)
    (hright : Reaches (c.skipTrivia.skip 1).factor right next)
    (hmore : Reaches (next.productFrom (left.join operator right)) a last) :
    Reaches (c.productFrom left) a last := by
  rw [productFrom]
  split
  · simp_all
  · rename_i operator' h
    obtain rfl := Option.some.inj (hoperator.symm.trans h)
    exact hright.bind fun _ => hmore.bind fun _ => ⟨_, rfl⟩

theorem reaches_sum (hleft : Reaches c.product e next) (hmore : Reaches (next.sumFrom e) a last) :
    Reaches c.sum a last := by
  rw [sum]
  exact hleft.bind fun _ => hmore.bind fun _ => ⟨_, rfl⟩

theorem reaches_product (hleft : Reaches c.factor e next)
    (hmore : Reaches (next.productFrom e) a last) : Reaches c.product a last := by
  rw [product]
  exact hleft.bind fun _ => hmore.bind fun _ => ⟨_, rfl⟩

end Cursor

/-! ## Levels -/

section

variable (text : List Char) (e : Expr)

/-- A text is a factor, with what can stand behind one. -/
def ReadsFactor : Prop :=
  ∀ (c : Cursor) rest, Follows 2 rest → c.Faces (text ++ rest) →
    ∃ e' next, Reaches c.factor e' next ∧ e'.unplaced = e ∧ next.Faces rest

/-- A text is a product, or the front of one that goes on. -/
def ReadsProduct : Prop :=
  ∀ (c : Cursor) rest, Follows 2 rest → c.Faces (text ++ rest) →
    ∃ (e' : Expr) (next : Cursor),
      (∀ a last, Reaches (next.productFrom e') a last → Reaches c.product a last) ∧
        e'.unplaced = e ∧ next.Faces rest

/-- A text is a sum, or the front of one that goes on. -/
def ReadsSum : Prop :=
  ∀ (c : Cursor) rest, Follows 1 rest → c.Faces (text ++ rest) →
    ∃ (e' : Expr) (next : Cursor),
      (∀ a last, Reaches (next.sumFrom e') a last → Reaches c.sum a last) ∧
        e'.unplaced = e ∧ next.Faces rest

/-- A text is a whole expression. -/
def ReadsWhole : Prop :=
  ∀ (c : Cursor) rest, Closes rest → c.Faces (text ++ rest) →
    ∃ e' next, Reaches c.expr e' next ∧ e'.unplaced = e ∧ next.Faces rest

/-- A text is read as a tree by the parser of a level. -/
def ReadsAt : Nat → Prop
  | 0 => ReadsWhole text e
  | 1 => ReadsSum text e
  | 2 => ReadsProduct text e
  | _ => ReadsFactor text e

end

section

variable {text : List Char} {e : Expr}

theorem ReadsFactor.product (h : ReadsFactor text e) : ReadsProduct text e := by
  intro c rest hrest hc
  obtain ⟨e', next, hfactor, he, hnext⟩ := h c rest hrest hc
  exact ⟨e', next, fun a last hmore => Cursor.reaches_product hfactor hmore, he, hnext⟩

theorem ReadsProduct.sum (h : ReadsProduct text e) : ReadsSum text e := by
  intro c rest hrest hc
  obtain ⟨e', next, hproduct, he, hnext⟩ := h c rest (hrest.mono (by decide)) hc
  have hends := hproduct _ _ (Cursor.reaches_productFrom_of_follows hnext hrest e')
  exact ⟨e', next.skipTrivia, fun a last hmore => Cursor.reaches_sum hends hmore, he,
    hnext.skipTrivia⟩

/-- A sum behind which no operator stands. -/
theorem ReadsSum.reaches (h : ReadsSum text e) {c : Cursor} {rest : List Char}
    (hrest : Follows 0 rest) (hc : c.Faces (text ++ rest)) :
    ∃ e' next, Reaches c.sum e' next ∧ e'.unplaced = e ∧ next.Faces rest := by
  obtain ⟨e', next, hsum, he, hnext⟩ := h c rest (hrest.mono (by decide)) hc
  exact ⟨e', next.skipTrivia, hsum _ _ (Cursor.reaches_sumFrom_of_follows hnext hrest e'), he,
    hnext.skipTrivia⟩

theorem Cursor.reaches_items_of_closes {c : Cursor} {rest : List Char} (hrest : Closes rest)
    (hc : c.Faces rest) : Reaches c.items [] c.skipTrivia := by
  have hsolid := hrest.isSolid
  apply reaches_items_of_none
  obtain ⟨x, t, rfl, rfl | rfl⟩ := hrest
  · rw [hc.peek?_skipTrivia hsolid, Option.any_some, Lexeme.startsItem_eq (by decide)]
    decide
  · rw [hc.peek?_skipTrivia hsolid, Option.any_some, Lexeme.startsItem_eq (by decide)]
    decide

theorem ReadsSum.whole (h : ReadsSum text e) : ReadsWhole text e := by
  intro c rest hrest hc
  obtain ⟨e', next, hsum, he, hnext⟩ := h.reaches (.closing hrest) hc
  refine ⟨e', next.skipTrivia, ?_, he, hnext.skipTrivia⟩
  rw [Cursor.expr]
  exact hsum.bind fun _ => (Cursor.reaches_items_of_closes hrest hnext).bind fun _ => ⟨_, rfl⟩

/-- What holds together at a level is read at the levels below. -/
theorem ReadsAt.mono {m n : Nat} (h : ReadsAt text e n) (hle : m ≤ n) : ReadsAt text e m := by
  induction hle with
  | refl => exact h
  | step _ ih =>
    apply ih
    rename_i k _
    match k, h with
    | 0, h => exact ReadsSum.whole h
    | 1, h => exact ReadsProduct.sum h
    | 2, h => exact ReadsFactor.product h
    | _ + 3, h => exact h

end

end Stylesheet
