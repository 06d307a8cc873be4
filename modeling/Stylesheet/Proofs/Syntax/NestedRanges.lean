import Stylesheet.Proofs.Syntax.Heads
import Stylesheet.Proofs.Syntax.StatementSoundness
import Stylesheet.Proofs.Syntax.Trivia

/-!
# Nested ranges

The ranges of a parse result form a tree (`ranges_form_tree`): each of them covers some text of the
source, and what stands in a statement or an expression has its range inside, one part behind
another.
-/

namespace Stylesheet

/-! ## Ranges among each other -/

namespace Range

/-- One range comes to its end before another starts, or where it starts. -/
def EndsBefore (a b : Range) : Prop := a.stop ≤ b.start

/-- One range lies inside another. -/
def IsIn (inner outer : Range) : Prop := outer.start ≤ inner.start ∧ inner.stop ≤ outer.stop

/-- The ranges of the parts of a node lie in the range of the node, one behind another. -/
structure Holds (range : Range) (parts : List Range) : Prop where
  isIn : ∀ part ∈ parts, part.IsIn range
  ordered : parts.Pairwise EndsBefore

end Range

/-- A range covers some text of a source, from one character to another, and the first character of
it is neither blank nor the start of a comment. -/
def Range.IsVisible (range : Range) (source : String) : Prop :=
  ∃ front x text rest, range.Cuts source front (x :: text) rest ∧ Text.isBlank x = false ∧
    ¬Lexeme.OpensComment (x :: text ++ rest)

/-! ## The parts of a node -/

/-- The expressions that an expression is made of. -/
def Expr.children : Expr → List Expr
  | binary _ _ left right => [left, right]
  | negate _ operand => [operand]
  | list _ items => items
  | _ => []

/-- The ranges of the parts of a statement: its value, or the statements of its body. -/
def Statement.parts : Statement → List Range
  | assign _ _ value | warn _ value | debug _ value | declaration _ _ value => [value.range]
  | defineMixin _ _ body | rule _ _ body => body.map range
  | includeMixin .. => []

/-- The ranges of statements and of everything inside them form a tree. -/
structure Statement.FormTree (source : String) (statements : List Statement) : Prop where
  ordered : (statements.map range).Pairwise Range.EndsBefore
  statement : ∀ s ∈ nodesIn statements, s.range.IsVisible source ∧ s.range.Holds s.parts
  expr : ∀ s ∈ nodesIn statements, ∀ e ∈ s.exprs,
    e.range.IsVisible source ∧ e.range.Holds (e.children.map Expr.range)

@[simp] theorem Expr.children_withRange (range : Range) (e : Expr) :
    (e.withRange range).children = e.children := by
  cases e <;> rfl

/-! ## Stretches between cursors -/

namespace Cursor

variable {a b c d : Cursor} {parts : List Range}

theorem isIn_rangeTo (hac : a ≤ c) (hdb : d ≤ b) : (c.rangeTo d).IsIn (a.rangeTo b) :=
  ⟨offset_le hac, offset_le hdb⟩

theorem holds_nil (range : Range) : range.Holds [] := ⟨by simp, List.Pairwise.nil⟩

/-- A part in front of the others. -/
theorem holds_cons (hac : a ≤ c) (hcd : c ≤ d) (h : (d.rangeTo b).Holds parts) (hdb : d ≤ b) :
    (a.rangeTo b).Holds (c.rangeTo d :: parts) := by
  refine ⟨?_, List.pairwise_cons.mpr ⟨fun part hpart => (h.isIn part hpart).1, h.ordered⟩⟩
  intro part hpart
  rcases List.mem_cons.mp hpart with rfl | hpart
  · exact isIn_rangeTo hac hdb
  · obtain ⟨hstart, hstop⟩ := h.isIn part hpart
    exact ⟨le_trans (offset_le (le_trans hac hcd)) hstart, hstop⟩

theorem holds_mono (hac : a ≤ c) (hdb : d ≤ b) (h : (c.rangeTo d).Holds parts) :
    (a.rangeTo b).Holds parts := by
  refine ⟨fun part hpart => ?_, h.ordered⟩
  obtain ⟨hstart, hstop⟩ := h.isIn part hpart
  exact ⟨le_trans (offset_le hac) hstart, le_trans hstop (offset_le hdb)⟩

/-- A single part. -/
theorem holds_singleton (hac : a ≤ c) (hcd : c ≤ d) (hdb : d ≤ b) :
    (a.rangeTo b).Holds [c.rangeTo d] :=
  holds_cons hac hcd (holds_nil _) hdb

/-- What is solid is visible. -/
theorem isVisible_rangeTo {source : String} (ha : start source.toList ≤ a) (hab : a ≤ b)
    (hlt : b.size < a.size) (hsolid : Lexeme.IsSolid a.rest) :
    (a.rangeTo b).IsVisible source := by
  obtain ⟨front, hfront, hstart⟩ := exists_front ha
  obtain ⟨text, hrest, hstop⟩ := exists_between hab
  cases text with
  | nil => simp [size, hrest] at hlt
  | cons x text =>
    have hcuts : (a.rangeTo b).Cuts source front (x :: text) b.rest := by
      refine ⟨?_, hstart, ?_⟩
      · rw [hfront, hrest, List.append_assoc]
      · rw [rangeTo, hstop, hstart, Text.byteLength_append]
    rw [hrest] at hsolid
    exact ⟨front, x, text, b.rest, hcuts, hsolid.isBlank_eq_false, hsolid.not_opensComment⟩

end Cursor

/-! ## Expressions -/

namespace Expr

theorem Items.holds {items : List Expr} {a b : Cursor} (h : Items items a b) :
    (a.rangeTo b).Holds (items.map Expr.range) := by
  induction items generalizing a with
  | nil => exact Cursor.holds_nil _
  | cons item items ih =>
    cases h with
    | cons _ _ hitem hitems =>
      rw [List.map_cons, hitem.range_eq]
      exact Cursor.holds_cons (Cursor.le_skipTrivia _) hitem.le (ih hitems) hitems.le

/-- The parts of an operation lie inside it, one behind the other. -/
theorem Stands.holds_operation {level level' : Level} {left right : Expr} {a b c : Cursor}
    (hleft : left.Stands level a b)
    (hright : right.Stands level' (b.skipTrivia.skip 1).skipTrivia c) :
    (a.rangeTo c).Holds [left.range, right.range] := by
  rw [hleft.range_eq, hright.range_eq]
  exact Cursor.holds_cons (le_refl a) hleft.le
    (Cursor.holds_singleton (Cursor.le_behind_operator _) hright.le (le_refl c))
    (le_trans (Cursor.le_behind_operator _) hright.le)

/-- The parts of an expression lie inside it, one behind another. -/
theorem Stands.holds {level : Level} {e : Expr} {a b : Cursor} (h : e.Stands level a b) :
    (a.rangeTo b).Holds (e.children.map Expr.range) := by
  induction h using Stands.induct with
  | leaf e a b h => cases h <;> exact Cursor.holds_nil _
  | group e a b c hopen h hclose ih =>
    rw [children_withRange]
    exact Cursor.holds_mono (le_trans (a.le_skip 1) (Cursor.le_skipTrivia _)) hclose.le ih
  | negate e a b hsign h ih =>
    rw [children, List.map_singleton, h.range_eq]
    exact Cursor.holds_singleton (le_trans (a.le_skip 1) (Cursor.le_skipTrivia _)) h.le (le_refl b)
  | primary e a b hsign h ih => exact ih
  | factor e a b h ih => exact ih
  | product e a b h ih => exact ih
  | sum e a b h ih => exact ih
  | multiply left right a b c operator hleft ho hright => exact hleft.holds_operation hright
  | add left right a b c operator hleft ho hright => exact hleft.holds_operation hright
  | list first second more a b c hfirst hmore ih =>
    rw [children, List.map_cons, hfirst.range_eq]
    exact Cursor.holds_cons (le_refl a) hfirst.le hmore.holds hmore.le

end Expr

/-! ## Statements -/

namespace Statement

theorem StandAll.holds {isBlock : Bool} {statements : List Statement} {a b : Cursor}
    (h : StandAll isBlock statements a b) : (a.rangeTo b).Holds (statements.map range) := by
  induction statements generalizing a with
  | nil => exact Cursor.holds_nil _
  | cons first rest ih =>
    cases h with
    | cons _ hfirst hrest =>
      obtain ⟨c, hrange, hac, hcb⟩ := hfirst.exists_range_eq
      rw [List.map_cons, hrange]
      exact Cursor.holds_cons (Cursor.le_skipTrivia _) hac
        (Cursor.holds_mono hcb (le_refl b) (ih hrest)) (le_trans hcb hrest.le)

/-- A statement covers some text, and its parts lie inside it. -/
theorem Stands.covers {isBlock : Bool} {s : Statement} {a b : Cursor} (h : s.Stands isBlock a b) :
    ∃ c, s.range = a.rangeTo c ∧ a ≤ c ∧ c.size < a.size ∧ (a.rangeTo c).Holds s.parts := by
  -- the value, the name or the closing brace at the end of the range takes up the text
  cases h with
  | @assign _ _ value _ b c d _ hpeek hname hcolon hvalue _ =>
    have hle : a ≤ c.skipTrivia :=
      le_trans (a.le_skip 1) (le_trans hname.le (le_trans hcolon.le c.le_skipTrivia))
    refine ⟨d, rfl, le_trans hle hvalue.le,
      Nat.lt_of_lt_of_le hvalue.size_lt (Cursor.size_le hle), ?_⟩
    rw [parts, hvalue.range_eq]
    exact Cursor.holds_singleton hle hvalue.le (le_refl d)
  | @warn _ value _ b c _ hat hvalue _ | @debug _ value _ b c _ hat hvalue _ =>
    have hle : a ≤ b.skipTrivia := le_trans hat.le b.le_skipTrivia
    refine ⟨c, rfl, le_trans hle hvalue.le,
      Nat.lt_of_lt_of_le hvalue.size_lt (Cursor.size_le hle), ?_⟩
    rw [parts, hvalue.range_eq]
    exact Cursor.holds_singleton hle hvalue.le (le_refl c)
  | @defineMixin _ _ _ _ b c d e _ hat hname hopen hbody hclose =>
    have hle : a ≤ d :=
      le_trans hat.le (le_trans b.le_skipTrivia (le_trans hname.le hopen.le))
    exact ⟨_, rfl, le_trans hle (le_trans hbody.le hclose.le),
      Nat.lt_of_lt_of_le hclose.size_lt (Cursor.size_le (le_trans hle hbody.le)),
      Cursor.holds_mono hle hclose.le hbody.holds⟩
  | @includeMixin _ _ _ b c _ hat hname _ =>
    have hle : a ≤ b.skipTrivia := le_trans hat.le b.le_skipTrivia
    exact ⟨c, rfl, le_trans hle hname.le,
      Nat.lt_of_lt_of_le hname.size_lt (Cursor.size_le hle), Cursor.holds_nil _⟩
  | @declaration _ value _ b c d _ _ hname hcolon hvalue _ =>
    have hle : a ≤ c.skipTrivia := le_trans hname.le (le_trans hcolon.le c.le_skipTrivia)
    refine ⟨d, rfl, le_trans hle hvalue.le,
      Nat.lt_of_lt_of_le hvalue.size_lt (Cursor.size_le hle), ?_⟩
    rw [parts, hvalue.range_eq]
    exact Cursor.holds_singleton hle hvalue.le (le_refl d)
  | @rule _ _ _ _ b c _ _ _ _ hopen hbody hclose =>
    exact ⟨_, rfl, le_trans hopen.le (le_trans hbody.le hclose.le),
      Nat.lt_of_lt_of_le hclose.size_lt (Cursor.size_le (le_trans hopen.le hbody.le)),
      Cursor.holds_mono hopen.le hclose.le hbody.holds⟩

/-- A statement stands behind a cursor, with no blanks and no comment in front of its text. -/
def Placed (a : Cursor) (s : Statement) : Prop :=
  ∃ isBlock c d, s.Stands isBlock c d ∧ a ≤ c ∧ Lexeme.IsSolid c.rest

theorem Placed.mono {a c : Cursor} {s : Statement} (h : s.Placed c) (hac : a ≤ c) :
    s.Placed a := by
  obtain ⟨isBlock, c', d, hstands, hc, hsolid⟩ := h
  exact ⟨isBlock, c', d, hstands, le_trans hac hc, hsolid⟩

mutual

theorem Stands.placed_of_mem_inner {isBlock : Bool} {s node : Statement} {a b : Cursor}
    (hnode : node ∈ s.inner) : s.Stands isBlock a b → node.Placed a
  | .assign .. | .warn .. | .debug .. | .includeMixin .. | .declaration .. => by
    simp [inner] at hnode
  | .defineMixin hat hname hopen hbody _ =>
    (hbody.placed_of_mem_nodesIn hnode).mono (le_trans hat.le (le_trans (Cursor.le_skipTrivia _)
      (le_trans hname.le hopen.le)))
  | .rule _ _ _ hopen hbody _ => (hbody.placed_of_mem_nodesIn hnode).mono hopen.le

theorem StandAll.placed_of_mem_nodesIn {isBlock : Bool} {statements : List Statement}
    {node : Statement} {a b : Cursor} (hnode : node ∈ nodesIn statements) :
    StandAll isBlock statements a b → node.Placed a
  | .nil _ => by simp [nodesIn] at hnode
  | .cons _ hfirst hrest => by
    have hstart := Cursor.le_skipTrivia a
    rw [nodesIn] at hnode
    rcases List.mem_cons.mp hnode with rfl | hnode
    · exact ⟨_, _, _, hfirst, hstart, a.isSolid_skipTrivia⟩
    · rcases List.mem_append.mp hnode with hnode | hnode
      · exact (hfirst.placed_of_mem_inner hnode).mono hstart
      · exact (hrest.placed_of_mem_nodesIn hnode).mono (le_trans hstart hfirst.le)

end

end Statement

/-! ## Whole texts -/

/-- The ranges of an accepted text form a tree: every statement and every expression covers some
text between two characters of the source, at the front of which there is neither a blank nor a
comment, what stands in it lies inside it, and neighbours lie one behind another. The error of a
text that is not accepted lies between two characters of the source as well. -/
theorem ranges_form_tree (source : String) :
    match parse source with
    | .ok statements => Statement.FormTree source statements
    | .error error => ∃ front text rest, error.range.Cuts source front text rest := by
  cases hparse : parse source with
  | error error => exact exists_cut_of_parse_eq_error hparse
  | ok statements =>
    obtain ⟨last, hstands⟩ := parse_stands hparse
    refine ⟨hstands.holds.ordered, ?_, ?_⟩
    · intro s hs
      obtain ⟨isBlock, a, b, hnode, ha, hsolid⟩ := hstands.placed_of_mem_nodesIn hs
      obtain ⟨c, hrange, hac, hlt, hholds⟩ := hnode.covers
      rw [hrange]
      exact ⟨Cursor.isVisible_rangeTo ha hac hlt hsolid, hholds⟩
    · intro s hs e he
      obtain ⟨value, hvalue, hnode⟩ := List.mem_flatMap.mp he
      obtain ⟨isBlock, a, b, hnode', ha, _⟩ := hstands.within_of_mem_nodesIn hs
      obtain ⟨_, c, d, hvalue, hac, _⟩ := hnode'.value_within (Option.mem_toList.mp hvalue)
      obtain ⟨_, c', d', hexpr, hcc, _⟩ := hvalue.within_of_mem_nodes hnode
      rw [hexpr.range_eq]
      exact ⟨Cursor.isVisible_rangeTo (le_trans ha (le_trans hac hcc)) hexpr.le hexpr.size_lt
        hexpr.isSolid, hexpr.holds⟩

end Stylesheet
