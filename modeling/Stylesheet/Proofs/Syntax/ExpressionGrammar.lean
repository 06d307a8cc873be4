import Stylesheet.Proofs.Syntax.Position
import Stylesheet.Syntax.Expression

/-!
# The grammar of expressions

What an expression is between two cursors, as a derivation. It stands from its first lexeme to the
end of its last one; blanks and comments are passed between lexemes only. The rules do not call
the parser. They give every node of an expression the range of its own text, which is what
`Expr.Stands.range_eq` and `Expr.Stands.within_of_mem_nodes` draw from them.
-/

namespace Stylesheet

/-! ## The nodes of an expression -/

namespace Expr

mutual

/-- The nodes inside an expression. -/
def inner : Expr → List Expr
  | binary _ _ left right => (left :: left.inner) ++ (right :: right.inner)
  | negate _ operand => operand :: operand.inner
  | list _ items => nodesIn items
  | _ => []

/-- Expressions and the nodes inside them. -/
def nodesIn : List Expr → List Expr
  | [] => []
  | item :: items => item :: (item.inner ++ nodesIn items)

end

/-- An expression and the nodes inside it. -/
def nodes (e : Expr) : List Expr := e :: e.inner

theorem self_mem_nodes (e : Expr) : e ∈ e.nodes := List.mem_cons_self

@[simp] theorem inner_withRange (range : Range) (e : Expr) :
    (e.withRange range).inner = e.inner := by
  cases e <;> rfl

end Expr

/-! ## Derivations -/

namespace Expr

/-- The lexemes that are expressions. -/
inductive IsLeaf : Expr → Cursor → Cursor → Prop where
  | number {a b : Cursor} (hpresent : (Lexeme.number a.rest).isPresent = true)
      (hb : b = a.skip (Lexeme.number a.rest).length) :
      IsLeaf (.number (a.rangeTo b) (Lexeme.number a.rest).value
        (if (Lexeme.number a.rest).unit = [] then none
          else some (String.ofList (Lexeme.number a.rest).unit))) a b
  | string {a b : Cursor} {quote : Char} {text : List Char} {length : Nat}
      (hquote : quote = '"' ∨ quote = '\'') (hpeek : a.peek? = some quote)
      (hrest : Lexeme.stringRest quote (a.rest.drop 1) = .closed text length)
      (hb : b = a.skip (1 + length)) :
      IsLeaf (.text (a.rangeTo b) (String.ofList text) true) a b
  | var {a b : Cursor} {name : String} (hpeek : a.peek? = some '$')
      (hname : (a.skip 1).Names name b) : IsLeaf (.var (a.rangeTo b) name) a b
  | hash {a b : Cursor} (hpeek : a.peek? = some '#')
      (hb : b = a.skip (Lexeme.hashLength a.rest)) :
      IsLeaf (.text (a.rangeTo b)
        (String.ofList (a.rest.take (Lexeme.hashLength a.rest))) false) a b
  | word {a b : Cursor} {name : String} (hname : a.Names name b) :
      IsLeaf (.text (a.rangeTo b) name false) a b

/-- How strongly the parts of an expression hold together. -/
inductive Level where
  | primary
  | factor
  | product
  | sum
  | list

mutual

/-- An expression of a level, from its first lexeme to the end of its last one. -/
inductive Stands : Level → Expr → Cursor → Cursor → Prop where
  | leaf {e : Expr} {a b : Cursor} (h : e.IsLeaf a b) : Stands .primary e a b
  | group {e : Expr} {a b c : Cursor} (hopen : a.peek? = some '(')
      (h : Stands .list e (a.skip 1).skipTrivia b) (hclose : b.Passes ')' c) :
      Stands .primary (e.withRange (a.rangeTo c)) a c
  | primary {e : Expr} {a b : Cursor} (hsign : a.isNegation = false)
      (h : Stands .primary e a b) : Stands .factor e a b
  | negate {e : Expr} {a b : Cursor} (hsign : a.isNegation = true)
      (h : Stands .factor e (a.skip 1).skipTrivia b) : Stands .factor (.negate (a.rangeTo b) e) a b
  | factor {e : Expr} {a b : Cursor} (h : Stands .factor e a b) : Stands .product e a b
  | multiply {left right : Expr} {a b c : Cursor} {operator : Operator}
      (hleft : Stands .product left a b) (ho : b.skipTrivia.multiplicative? = some operator)
      (hright : Stands .factor right (b.skipTrivia.skip 1).skipTrivia c) :
      Stands .product (.binary (a.rangeTo c) operator left right) a c
  | product {e : Expr} {a b : Cursor} (h : Stands .product e a b) : Stands .sum e a b
  | add {left right : Expr} {a b c : Cursor} {operator : Operator}
      (hleft : Stands .sum left a b) (ho : b.skipTrivia.additive? = some operator)
      (hright : Stands .product right (b.skipTrivia.skip 1).skipTrivia c) :
      Stands .sum (.binary (a.rangeTo c) operator left right) a c
  | sum {e : Expr} {a b : Cursor} (h : Stands .sum e a b) : Stands .list e a b
  | list {first second : Expr} {more : List Expr} {a b c : Cursor} (hfirst : Stands .sum first a b)
      (hmore : Items (second :: more) b c) :
      Stands .list (.list (a.rangeTo c) (first :: second :: more)) a c

/-- Further items of a list, behind the end of one. -/
inductive Items : List Expr → Cursor → Cursor → Prop where
  | nil {a : Cursor} : Items [] a a
  | cons {item : Expr} {items : List Expr} {a b c : Cursor}
      (hoperator : a.skipTrivia.additive? = none)
      (hstart : a.skipTrivia.peek?.any Lexeme.startsItem = true)
      (hitem : Stands .sum item a.skipTrivia b) (hitems : Items items b c) :
      Items (item :: items) a c

end

theorem IsLeaf.le {e : Expr} {a b : Cursor} (h : e.IsLeaf a b) : a ≤ b := by
  cases h with
  | number _ hb => exact hb ▸ a.le_skip _
  | string _ _ _ hb => exact hb ▸ a.le_skip _
  | var _ hname => exact le_trans (a.le_skip 1) hname.le
  | hash _ hb => exact hb ▸ a.le_skip _
  | word hname => exact hname.le

mutual

theorem Stands.le {level : Level} {e : Expr} {a b : Cursor} : e.Stands level a b → a ≤ b
  | .leaf h => h.le
  | .group _ h hclose =>
    le_trans (le_trans (a.le_skip 1) (Cursor.le_skipTrivia _)) (le_trans h.le hclose.le)
  | .negate _ h => le_trans (le_trans (a.le_skip 1) (Cursor.le_skipTrivia _)) h.le
  | .primary _ h | .factor h | .product h | .sum h => h.le
  | .multiply hleft _ hright | .add hleft _ hright =>
    le_trans hleft.le (le_trans (le_trans (Cursor.le_skipTrivia _) (Cursor.le_skip _ 1))
      (le_trans (Cursor.le_skipTrivia _) hright.le))
  | .list hfirst hmore => le_trans hfirst.le hmore.le

theorem Items.le {items : List Expr} {a b : Cursor} : Items items a b → a ≤ b
  | .nil => le_refl _
  | .cons _ _ hitem hitems =>
    le_trans (le_trans (Cursor.le_skipTrivia _) hitem.le) hitems.le

end

/-- The range of an expression is the stretch on which it stands. -/
theorem Stands.range_eq {level : Level} {e : Expr} {a b : Cursor} :
    e.Stands level a b → e.range = a.rangeTo b
  | .leaf h => by cases h <;> rfl
  | .group _ _ _ => range_withRange _ _
  | .primary _ h | .factor h | .product h | .sum h => h.range_eq
  | .negate .. | .multiply .. | .add .. | .list .. => rfl

/-- Induction on where an expression stands, for what needs no more of the further items of a list
than that they are there. -/
@[elab_as_elim]
theorem Stands.induct {motive : ∀ level e a b, Stands level e a b → Prop}
    (leaf : ∀ e a b (h : e.IsLeaf a b), motive .primary e a b (.leaf h))
    (group : ∀ e a b c (hopen : a.peek? = some '(') (h : Stands .list e (a.skip 1).skipTrivia b)
      (hclose : b.Passes ')' c), motive .list e (a.skip 1).skipTrivia b h →
      motive .primary (e.withRange (a.rangeTo c)) a c (.group hopen h hclose))
    (primary : ∀ e a b (hsign : a.isNegation = false) (h : Stands .primary e a b),
      motive .primary e a b h → motive .factor e a b (.primary hsign h))
    (negate : ∀ e a b (hsign : a.isNegation = true)
      (h : Stands .factor e (a.skip 1).skipTrivia b),
      motive .factor e (a.skip 1).skipTrivia b h →
      motive .factor (.negate (a.rangeTo b) e) a b (.negate hsign h))
    (factor : ∀ e a b (h : Stands .factor e a b), motive .factor e a b h →
      motive .product e a b (.factor h))
    (multiply : ∀ left right a b c operator (hleft : Stands .product left a b)
      (ho : b.skipTrivia.multiplicative? = some operator)
      (hright : Stands .factor right (b.skipTrivia.skip 1).skipTrivia c),
      motive .product left a b hleft →
      motive .factor right (b.skipTrivia.skip 1).skipTrivia c hright →
      motive .product (.binary (a.rangeTo c) operator left right) a c (.multiply hleft ho hright))
    (product : ∀ e a b (h : Stands .product e a b), motive .product e a b h →
      motive .sum e a b (.product h))
    (add : ∀ left right a b c operator (hleft : Stands .sum left a b)
      (ho : b.skipTrivia.additive? = some operator)
      (hright : Stands .product right (b.skipTrivia.skip 1).skipTrivia c),
      motive .sum left a b hleft →
      motive .product right (b.skipTrivia.skip 1).skipTrivia c hright →
      motive .sum (.binary (a.rangeTo c) operator left right) a c (.add hleft ho hright))
    (sum : ∀ e a b (h : Stands .sum e a b), motive .sum e a b h → motive .list e a b (.sum h))
    (list : ∀ first second more a b c (hfirst : Stands .sum first a b)
      (hmore : Items (second :: more) b c), motive .sum first a b hfirst →
      motive .list (.list (a.rangeTo c) (first :: second :: more)) a c (.list hfirst hmore))
    {level : Level} {e : Expr} {a b : Cursor} (h : Stands level e a b) : motive level e a b h := by
  refine @Stands.rec motive (fun _ _ _ _ => True) (leaf _ _ _) ?_ ?_ ?_ ?_ ?_ ?_ ?_ ?_ ?_ trivial
    (fun _ _ _ _ _ _ => trivial) _ _ _ _ h
  · exact fun hopen h hclose ih => group _ _ _ _ hopen h hclose ih
  · exact fun hsign h ih => primary _ _ _ hsign h ih
  · exact fun hsign h ih => negate _ _ _ hsign h ih
  · exact fun h ih => factor _ _ _ h ih
  · exact fun hleft ho hright ihleft ihright => multiply _ _ _ _ _ _ hleft ho hright ihleft ihright
  · exact fun h ih => product _ _ _ h ih
  · exact fun hleft ho hright ihleft ihright => add _ _ _ _ _ _ hleft ho hright ihleft ihright
  · exact fun h ih => sum _ _ _ h ih
  · exact fun hfirst hmore ih _ => list _ _ _ _ _ _ hfirst hmore ih

/-- Whether an expression stands between two cursors. -/
def Within (a b : Cursor) (e : Expr) : Prop :=
  ∃ level c d, e.Stands level c d ∧ a ≤ c ∧ d ≤ b

theorem Within.mono {a b c d : Cursor} {e : Expr} (h : e.Within c d) (hac : a ≤ c) (hdb : d ≤ b) :
    e.Within a b := by
  obtain ⟨level, c', d', hstands, hc, hd⟩ := h
  exact ⟨level, c', d', hstands, le_trans hac hc, le_trans hd hdb⟩

theorem Stands.within {level : Level} {e : Expr} {a b : Cursor} (h : e.Stands level a b) :
    e.Within a b :=
  ⟨level, a, b, h, le_refl a, le_refl b⟩

mutual

/-- The nodes inside an expression stand where it stands. -/
theorem Stands.within_of_mem_inner {level : Level} {e node : Expr} {a b : Cursor}
    (hnode : node ∈ e.inner) : e.Stands level a b → node.Within a b
  | .leaf h => by cases h <;> simp [inner] at hnode
  | .group hopen h hclose => by
    rw [inner_withRange] at hnode
    exact (h.within_of_mem_inner hnode).mono
      (le_trans (a.le_skip 1) (Cursor.le_skipTrivia _)) hclose.le
  | .negate _ h => by
    have hle := le_trans (a.le_skip 1) (Cursor.le_skipTrivia _)
    rcases List.mem_cons.mp hnode with rfl | hnode
    · exact h.within.mono hle (le_refl b)
    · exact (h.within_of_mem_inner hnode).mono hle (le_refl b)
  | .primary _ h | .factor h | .product h | .sum h => h.within_of_mem_inner hnode
  | .multiply hleft _ hright | .add hleft _ hright => by
    have hle := le_trans (le_trans (Cursor.le_skipTrivia _) (Cursor.le_skip _ 1))
      (le_trans (Cursor.le_skipTrivia _) hright.le)
    have hle' := le_trans hleft.le (le_trans (le_trans (Cursor.le_skipTrivia _)
      (Cursor.le_skip _ 1)) (Cursor.le_skipTrivia _))
    rcases List.mem_append.mp hnode with hnode | hnode
    · rcases List.mem_cons.mp hnode with rfl | hnode
      · exact hleft.within.mono (le_refl a) hle
      · exact (hleft.within_of_mem_inner hnode).mono (le_refl a) hle
    · rcases List.mem_cons.mp hnode with rfl | hnode
      · exact hright.within.mono hle' (le_refl b)
      · exact (hright.within_of_mem_inner hnode).mono hle' (le_refl b)
  | .list hfirst hmore => by
    rw [inner, nodesIn] at hnode
    rcases List.mem_cons.mp hnode with rfl | hnode
    · exact hfirst.within.mono (le_refl a) hmore.le
    · rcases List.mem_append.mp hnode with hnode | hnode
      · exact (hfirst.within_of_mem_inner hnode).mono (le_refl a) hmore.le
      · exact (hmore.within_of_mem_nodesIn hnode).mono hfirst.le (le_refl b)

theorem Items.within_of_mem_nodesIn {items : List Expr} {node : Expr} {a b : Cursor}
    (hnode : node ∈ nodesIn items) : Items items a b → node.Within a b
  | .nil => by simp [nodesIn] at hnode
  | .cons _ _ hitem hitems => by
    rw [nodesIn] at hnode
    rcases List.mem_cons.mp hnode with rfl | hnode
    · exact hitem.within.mono (Cursor.le_skipTrivia _) hitems.le
    · rcases List.mem_append.mp hnode with hnode | hnode
      · exact (hitem.within_of_mem_inner hnode).mono (Cursor.le_skipTrivia _) hitems.le
      · exact (hitems.within_of_mem_nodesIn hnode).mono
          (le_trans (Cursor.le_skipTrivia _) hitem.le) (le_refl b)

end

theorem Stands.within_of_mem_nodes {level : Level} {e node : Expr} {a b : Cursor}
    (h : e.Stands level a b) (hnode : node ∈ e.nodes) : node.Within a b := by
  rcases List.mem_cons.mp hnode with rfl | hnode
  · exact h.within
  · exact h.within_of_mem_inner hnode

end Expr

end Stylesheet
