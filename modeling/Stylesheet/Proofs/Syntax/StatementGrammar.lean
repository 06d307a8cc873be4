import Stylesheet.Proofs.Syntax.ExpressionGrammar
import Stylesheet.Syntax.Parser

/-!
# The grammar of statements

What a statement is between two cursors, as a derivation. It stands from its first lexeme to its
semicolon or closing brace, and its range may end before that. `StandAll.exists_of_mem_rangesIn`
says that every range of a tree is the stretch between two cursors.
-/

namespace Stylesheet

/-! ## The nodes of a statement -/

namespace Statement

mutual

/-- The statements inside a statement. -/
def inner : Statement → List Statement
  | defineMixin _ _ body | rule _ _ body => nodesIn body
  | _ => []

/-- Statements and those inside them. -/
def nodesIn : List Statement → List Statement
  | [] => []
  | statement :: statements => statement :: (statement.inner ++ nodesIn statements)

end

/-- The expression of a statement, if it has one. -/
def value? : Statement → Option Expr
  | assign _ _ value | warn _ value | debug _ value | declaration _ _ value => some value
  | _ => none

/-- The expressions in a statement, without those of the statements inside it. -/
def exprs (statement : Statement) : List Expr := statement.value?.toList.flatMap Expr.nodes

/-- The ranges of all statements and expressions in statements. -/
def rangesIn (statements : List Statement) : List Range :=
  (nodesIn statements).flatMap fun statement =>
    statement.range :: statement.exprs.map Expr.range

section

variable {p : Statement → Prop} {s : Statement} {statements : List Statement}

theorem forall_nodes_first (h : ∀ t ∈ nodesIn (s :: statements), p t) : ∀ t ∈ nodesIn [s], p t := by
  intro t ht
  simp only [nodesIn, List.append_nil] at ht
  exact h t (List.mem_append_left _ ht)

theorem forall_nodes_rest (h : ∀ t ∈ nodesIn (s :: statements), p t) :
    ∀ t ∈ nodesIn statements, p t :=
  fun t ht => h t (List.mem_cons_of_mem _ (List.mem_append_right _ ht))

theorem forall_nodes_inner (h : ∀ t ∈ nodesIn (s :: statements), p t) : ∀ t ∈ s.inner, p t :=
  fun t ht => h t (List.mem_cons_of_mem _ (List.mem_append_left _ ht))

end

end Statement

/-! ## Derivations -/

namespace Cursor

/-- The next cursor stands behind an at sign and a keyword. -/
def AtRule (keyword : String) (a b : Cursor) : Prop :=
  a.peek? = some '@' ∧ (a.skip 1).Names keyword b

/-- The next cursor stands behind a selector and its opening brace. -/
def OpensRule (selector : String) (a b : Cursor) : Prop :=
  (a.skip (Lexeme.head a.rest).length).peek? = some '{' ∧ Text.trim (Lexeme.head a.rest) ≠ [] ∧
    selector = String.ofList (Text.trim (Lexeme.head a.rest)) ∧
    b = (a.skip (Lexeme.head a.rest).length).skip 1

theorem AtRule.le {keyword : String} {a b : Cursor} (h : a.AtRule keyword b) : a ≤ b :=
  le_trans (a.le_skip 1) h.2.le

theorem OpensRule.le {selector : String} {a b : Cursor} (h : a.OpensRule selector b) : a ≤ b := by
  obtain ⟨_, _, _, rfl⟩ := h
  exact le_trans (a.le_skip _) (Cursor.le_skip _ 1)

/-- A declaration ends behind a semicolon, or in front of a closing brace. -/
def EndsDeclaration (a b : Cursor) : Prop :=
  a.skipTrivia.peek? = some '}' ∧ b = a.skipTrivia ∨ a.Passes ';' b

theorem EndsDeclaration.le {a b : Cursor} (h : a.EndsDeclaration b) : a ≤ b := by
  rcases h with ⟨_, rfl⟩ | h
  · exact a.le_skipTrivia
  · exact h.le

end Cursor

namespace Statement

mutual

/-- A statement, from its first lexeme to the end of its last one. Some statements are of another
kind in a block than outside. -/
inductive Stands : Bool → Statement → Cursor → Cursor → Prop where
  | assign {isBlock : Bool} {name : String} {value : Expr} {a b c d e : Cursor}
      (hpeek : a.peek? = some '$') (hname : (a.skip 1).Names name b) (hcolon : b.Passes ':' c)
      (hvalue : value.Stands .list c.skipTrivia d) (hend : d.Passes ';' e) :
      Stands isBlock (.assign (a.rangeTo d) name value) a e
  | warn {isBlock : Bool} {value : Expr} {a b c d : Cursor} (hat : a.AtRule "warn" b)
      (hvalue : value.Stands .list b.skipTrivia c) (hend : c.Passes ';' d) :
      Stands isBlock (.warn (a.rangeTo c) value) a d
  | debug {isBlock : Bool} {value : Expr} {a b c d : Cursor} (hat : a.AtRule "debug" b)
      (hvalue : value.Stands .list b.skipTrivia c) (hend : c.Passes ';' d) :
      Stands isBlock (.debug (a.rangeTo c) value) a d
  | defineMixin {isBlock : Bool} {name : String} {body : List Statement} {a b c d e f : Cursor}
      (hat : a.AtRule "mixin" b) (hname : b.skipTrivia.Names name c) (hopen : c.Passes '{' d)
      (hbody : StandAll true body d e) (hclose : e.Passes '}' f) :
      Stands isBlock (.defineMixin (a.rangeTo f) name body) a f
  | includeMixin {isBlock : Bool} {name : String} {a b c d : Cursor} (hat : a.AtRule "include" b)
      (hname : b.skipTrivia.Names name c) (hend : c.Passes ';' d) :
      Stands isBlock (.includeMixin (a.rangeTo c) name) a d
  | declaration {property : String} {value : Expr} {a b c d e : Cursor}
      (hlook : Lexeme.looksLikeDeclaration a.rest = true) (hname : a.Names property b)
      (hcolon : b.Passes ':' c) (hvalue : value.Stands .list c.skipTrivia d)
      (hend : d.EndsDeclaration e) :
      Stands true (.declaration (a.rangeTo d) property value) a e
  | rule {isBlock : Bool} {selector : String} {body : List Statement} {a b c d : Cursor}
      (hsign : a.peek? ≠ some '$') (hat : a.peek? ≠ some '@')
      (hlook : (isBlock && Lexeme.looksLikeDeclaration a.rest) = false)
      (hopen : a.OpensRule selector b) (hbody : StandAll true body b c)
      (hclose : c.Passes '}' d) :
      Stands isBlock (.rule (a.rangeTo d) selector body) a d

/-- Statements up to a closing brace or the end of the text. -/
inductive StandAll : Bool → List Statement → Cursor → Cursor → Prop where
  | nil {isBlock : Bool} {a : Cursor}
      (hend : a.skipTrivia.peek? = none ∨ a.skipTrivia.peek? = some '}') :
      StandAll isBlock [] a a.skipTrivia
  | cons {isBlock : Bool} {statement : Statement} {statements : List Statement} {a b c : Cursor}
      (hmore : a.skipTrivia.peek? ≠ some '}') (hfirst : Stands isBlock statement a.skipTrivia b)
      (hrest : StandAll isBlock statements b c) :
      StandAll isBlock (statement :: statements) a c

end

mutual

theorem Stands.le {isBlock : Bool} {s : Statement} {a b : Cursor} : s.Stands isBlock a b → a ≤ b
  | .assign _ hname hcolon hvalue hend =>
    le_trans (le_trans (a.le_skip 1) (le_trans hname.le hcolon.le))
      (le_trans (Cursor.le_skipTrivia _) (le_trans hvalue.le hend.le))
  | .warn hat hvalue hend | .debug hat hvalue hend =>
    le_trans (le_trans hat.le (Cursor.le_skipTrivia _)) (le_trans hvalue.le hend.le)
  | .defineMixin hat hname hopen hbody hclose =>
    le_trans (le_trans (le_trans hat.le (Cursor.le_skipTrivia _)) (le_trans hname.le hopen.le))
      (le_trans hbody.le hclose.le)
  | .includeMixin hat hname hend =>
    le_trans (le_trans hat.le (Cursor.le_skipTrivia _)) (le_trans hname.le hend.le)
  | .declaration _ hname hcolon hvalue hend =>
    le_trans (le_trans hname.le hcolon.le)
      (le_trans (Cursor.le_skipTrivia _) (le_trans hvalue.le hend.le))
  | .rule _ _ _ hopen hbody hclose => le_trans hopen.le (le_trans hbody.le hclose.le)

theorem StandAll.le {isBlock : Bool} {statements : List Statement} {a b : Cursor} :
    StandAll isBlock statements a b → a ≤ b
  | .nil _ => Cursor.le_skipTrivia _
  | .cons _ hfirst hrest => le_trans (le_trans (Cursor.le_skipTrivia _) hfirst.le) hrest.le

end

/-- The range of a statement starts where the statement does and ends within it. -/
theorem Stands.exists_range_eq {isBlock : Bool} {s : Statement} {a b : Cursor}
    (h : s.Stands isBlock a b) : ∃ c, s.range = a.rangeTo c ∧ a ≤ c ∧ c ≤ b := by
  cases h with
  | assign _ hname hcolon hvalue hend =>
    exact ⟨_, rfl, le_trans (le_trans (a.le_skip 1) (le_trans hname.le hcolon.le))
      (le_trans (Cursor.le_skipTrivia _) hvalue.le), hend.le⟩
  | warn hat hvalue hend | debug hat hvalue hend =>
    exact ⟨_, rfl, le_trans (le_trans hat.le (Cursor.le_skipTrivia _)) hvalue.le, hend.le⟩
  | defineMixin hat hname hopen hbody hclose =>
    have h : Stands isBlock _ a b := .defineMixin hat hname hopen hbody hclose
    exact ⟨b, rfl, h.le, le_refl b⟩
  | includeMixin hat hname hend =>
    exact ⟨_, rfl, le_trans (le_trans hat.le (Cursor.le_skipTrivia _)) hname.le, hend.le⟩
  | declaration _ hname hcolon hvalue hend =>
    exact ⟨_, rfl, le_trans (le_trans hname.le hcolon.le)
      (le_trans (Cursor.le_skipTrivia _) hvalue.le), hend.le⟩
  | rule hsign hat hlook hopen hbody hclose =>
    have h : Stands isBlock _ a b := .rule hsign hat hlook hopen hbody hclose
    exact ⟨b, rfl, h.le, le_refl b⟩

/-- The expression of a statement stands within it. -/
theorem Stands.value_within {isBlock : Bool} {s : Statement} {value : Expr} {a b : Cursor}
    (h : s.Stands isBlock a b) (hvalue : s.value? = some value) : value.Within a b := by
  cases h with
  | assign _ hname hcolon hstands hend =>
    obtain rfl := Option.some.inj hvalue
    exact hstands.within.mono (le_trans (a.le_skip 1) (le_trans hname.le (le_trans hcolon.le
      (Cursor.le_skipTrivia _)))) hend.le
  | warn hat hstands hend | debug hat hstands hend =>
    obtain rfl := Option.some.inj hvalue
    exact hstands.within.mono (le_trans hat.le (Cursor.le_skipTrivia _)) hend.le
  | declaration _ hname hcolon hstands hend =>
    obtain rfl := Option.some.inj hvalue
    exact hstands.within.mono (le_trans hname.le (le_trans hcolon.le (Cursor.le_skipTrivia _)))
      hend.le
  | defineMixin | includeMixin | rule => simp [value?] at hvalue

/-- Whether a statement stands between two cursors. -/
def Within (a b : Cursor) (s : Statement) : Prop :=
  ∃ isBlock c d, s.Stands isBlock c d ∧ a ≤ c ∧ d ≤ b

theorem Within.mono {a b c d : Cursor} {s : Statement} (h : s.Within c d) (hac : a ≤ c)
    (hdb : d ≤ b) : s.Within a b := by
  obtain ⟨isBlock, c', d', hstands, hc, hd⟩ := h
  exact ⟨isBlock, c', d', hstands, le_trans hac hc, le_trans hd hdb⟩

mutual

theorem Stands.within_of_mem_inner {isBlock : Bool} {s node : Statement} {a b : Cursor}
    (hnode : node ∈ s.inner) : s.Stands isBlock a b → node.Within a b
  | .assign .. | .warn .. | .debug .. | .includeMixin .. | .declaration .. => by
    simp [inner] at hnode
  | .defineMixin hat hname hopen hbody hclose =>
    (hbody.within_of_mem_nodesIn hnode).mono (le_trans (le_trans hat.le (Cursor.le_skipTrivia _))
      (le_trans hname.le hopen.le)) hclose.le
  | .rule _ _ _ hopen hbody hclose =>
    (hbody.within_of_mem_nodesIn hnode).mono hopen.le hclose.le

/-- The statements inside statements stand where these stand. -/
theorem StandAll.within_of_mem_nodesIn {isBlock : Bool} {statements : List Statement}
    {node : Statement} {a b : Cursor} (hnode : node ∈ nodesIn statements) :
    StandAll isBlock statements a b → node.Within a b
  | .nil _ => by simp [nodesIn] at hnode
  | .cons _ hfirst hrest => by
    have hstart := Cursor.le_skipTrivia a
    rw [nodesIn] at hnode
    rcases List.mem_cons.mp hnode with rfl | hnode
    · exact ⟨_, _, _, hfirst, hstart, hrest.le⟩
    · rcases List.mem_append.mp hnode with hnode | hnode
      · exact (hfirst.within_of_mem_inner hnode).mono hstart hrest.le
      · exact (hrest.within_of_mem_nodesIn hnode).mono (le_trans hstart hfirst.le) (le_refl b)

end

/-- Every range of a tree is the stretch between two cursors. -/
theorem StandAll.exists_of_mem_rangesIn {isBlock : Bool} {statements : List Statement}
    {range : Range} {a b : Cursor} (h : StandAll isBlock statements a b)
    (hrange : range ∈ rangesIn statements) : ∃ c d, range = c.rangeTo d ∧ a ≤ c ∧ c ≤ d := by
  obtain ⟨s, hs, hrange⟩ := List.mem_flatMap.mp hrange
  obtain ⟨_, c, d, hstands, hac, _⟩ := h.within_of_mem_nodesIn hs
  rcases List.mem_cons.mp hrange with rfl | hrange
  · obtain ⟨e, hrange, hce, _⟩ := hstands.exists_range_eq
    exact ⟨c, e, hrange, hac, hce⟩
  · obtain ⟨node, hnode, rfl⟩ := List.mem_map.mp hrange
    obtain ⟨value, hvalue, hnode⟩ := List.mem_flatMap.mp hnode
    obtain ⟨_, e, f, hvalue, hce, _⟩ := hstands.value_within (Option.mem_toList.mp hvalue)
    obtain ⟨_, e', f', hnode, hee, _⟩ := hvalue.within_of_mem_nodes hnode
    exact ⟨e', f', hnode.range_eq, le_trans hac (le_trans hce hee), hnode.le⟩

end Statement

end Stylesheet
