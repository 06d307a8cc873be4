import Mathlib.Data.List.Pairwise
import Stylesheet.Proofs.Syntax.NestedRanges

/-!
# Leaves of expressions

The numbers, texts and variables of an accepted text cover stretches of it that lie one behind
another (`leaves_ordered`). Parentheses around one of them belong to its stretch, and it has no
other.
-/

namespace Stylesheet

/-! ## Parts behind one another -/

namespace Cursor

variable {a b c d : Cursor} {parts parts' : List Range}

theorem holds_append (h : (a.rangeTo b).Holds parts) (h' : (c.rangeTo d).Holds parts')
    (hab : a ≤ b) (hbc : b ≤ c) (hcd : c ≤ d) : (a.rangeTo d).Holds (parts ++ parts') := by
  have hfront := holds_mono (le_refl a) (le_trans hbc hcd) h
  have hback := holds_mono (le_trans hab hbc) (le_refl d) h'
  refine ⟨?_, List.pairwise_append.mpr ⟨h.ordered, h'.ordered, ?_⟩⟩
  · intro part hpart
    exact (List.mem_append.mp hpart).elim (hfront.isIn part) (hback.isIn part)
  · intro part hpart part' hpart'
    exact le_trans (h.isIn part hpart).2 (le_trans (offset_le hbc) (h'.isIn part' hpart').1)

end Cursor

/-! ## Expressions -/

namespace Expr

mutual

/-- The numbers, texts and variables of an expression, in the order in which they stand. -/
def leaves : Expr → List Expr
  | binary _ _ left right => left.leaves ++ right.leaves
  | negate _ operand => operand.leaves
  | list _ items => leavesIn items
  | leaf => [leaf]

def leavesIn : List Expr → List Expr
  | [] => []
  | item :: items => item.leaves ++ leavesIn items

end

/-- A range given to a leaf is that of the leaf, and to something else none of a leaf. -/
theorem leaves_withRange (range : Range) (e : Expr) :
    (e.withRange range).leaves = e.leaves ∨ (e.withRange range).leaves = [e.withRange range] := by
  cases e with
  | number | text | var => exact .inr rfl
  | negate | binary | list => exact .inl rfl

mutual

theorem leaves_subset_of_inner {node : Expr} :
    (e : Expr) → node ∈ e.inner → node.leaves ⊆ e.leaves
  | .number .., h | .text .., h | .var .., h => by simp [inner] at h
  | .negate range operand, h => by
    rw [inner] at h
    rcases List.mem_cons.mp h with rfl | h
    · exact List.Subset.refl _
    · exact leaves_subset_of_inner operand h
  | .list range items, h => leaves_subset_of_nodesIn items h
  | .binary range operator left right, h => by
    rw [inner] at h
    rw [leaves]
    rcases List.mem_append.mp h with h | h
    · refine List.subset_append_of_subset_left _ ?_
      rcases List.mem_cons.mp h with rfl | h
      · exact List.Subset.refl _
      · exact leaves_subset_of_inner left h
    · refine List.subset_append_of_subset_right _ ?_
      rcases List.mem_cons.mp h with rfl | h
      · exact List.Subset.refl _
      · exact leaves_subset_of_inner right h

theorem leaves_subset_of_nodesIn {node : Expr} :
    (items : List Expr) → node ∈ nodesIn items → node.leaves ⊆ leavesIn items
  | [], h => by simp [nodesIn] at h
  | item :: items, h => by
    rw [nodesIn] at h
    rw [leavesIn]
    rcases List.mem_cons.mp h with rfl | h
    · exact List.subset_append_left _ _
    rcases List.mem_append.mp h with h | h
    · exact List.subset_append_of_subset_left _ (leaves_subset_of_inner item h)
    · exact List.subset_append_of_subset_right _ (leaves_subset_of_nodesIn items h)

end

theorem leaves_subset_of_mem_nodes {e node : Expr} (h : node ∈ e.nodes) :
    node.leaves ⊆ e.leaves := by
  rcases List.mem_cons.mp h with rfl | h
  · exact List.Subset.refl _
  · exact leaves_subset_of_inner e h

theorem IsLeaf.leaves_eq {e : Expr} {a b : Cursor} (h : e.IsLeaf a b) : e.leaves = [e] := by
  cases h <;> rfl

theorem Stands.holds_singleton {level : Level} {e : Expr} {a b : Cursor} (h : e.Stands level a b) :
    (a.rangeTo b).Holds [e.range] := by
  rw [h.range_eq]
  exact Cursor.holds_singleton (le_refl a) h.le (le_refl b)

mutual

/-- The leaves of an expression lie inside it, one behind another. -/
theorem Stands.holds_leaves {level : Level} {e : Expr} {a b : Cursor} :
    (h : e.Stands level a b) → (a.rangeTo b).Holds (e.leaves.map Expr.range)
  | .leaf h => by
    rw [h.leaves_eq]
    exact (Stands.leaf h).holds_singleton
  | .group (e := e) (c := c) hopen h hclose => by
    obtain hleaves | hleaves := leaves_withRange (a.rangeTo c) e
    · rw [hleaves]
      exact Cursor.holds_mono (le_trans (a.le_skip 1) (Cursor.le_skipTrivia _)) hclose.le
        h.holds_leaves
    · rw [hleaves]
      exact (Stands.group hopen h hclose).holds_singleton
  | .primary _ h | .factor h | .product h | .sum h => h.holds_leaves
  | .negate _ h =>
    Cursor.holds_mono (le_trans (a.le_skip 1) (Cursor.le_skipTrivia _)) (le_refl b) h.holds_leaves
  | .multiply hleft _ hright | .add hleft _ hright => by
    rw [leaves, List.map_append]
    exact Cursor.holds_append hleft.holds_leaves hright.holds_leaves hleft.le
      (Cursor.le_behind_operator _) hright.le
  | .list hfirst hmore => by
    rw [leaves, leavesIn, List.map_append]
    exact Cursor.holds_append hfirst.holds_leaves hmore.holds_leaves hfirst.le (le_refl _) hmore.le

theorem Items.holds_leaves {items : List Expr} {a b : Cursor} :
    (h : Items items a b) → (a.rangeTo b).Holds ((leavesIn items).map Expr.range)
  | .nil => Cursor.holds_nil _
  | .cons _ _ hitem hitems => by
    rw [leavesIn, List.map_append]
    exact Cursor.holds_mono (Cursor.le_skipTrivia a) (le_refl b)
      (Cursor.holds_append hitem.holds_leaves hitems.holds_leaves hitem.le (le_refl _) hitems.le)

end

end Expr

/-! ## Statements -/

namespace Statement

/-- The leaves of the expression of a statement. -/
def leaves (s : Statement) : List Expr := s.value?.toList.flatMap Expr.leaves

/-- The leaves of statements and those inside them. -/
def leavesIn (statements : List Statement) : List Expr := (nodesIn statements).flatMap leaves

theorem leaves_subset_of_mem_exprs {s : Statement} {e : Expr} (he : e ∈ s.exprs) :
    e.leaves ⊆ s.leaves := by
  obtain ⟨value, hvalue, he⟩ := List.mem_flatMap.mp he
  intro leaf hleaf
  exact List.mem_flatMap.mpr ⟨value, hvalue, Expr.leaves_subset_of_mem_nodes he hleaf⟩

theorem leaves_subset_leavesIn {statements : List Statement} {s : Statement}
    (hs : s ∈ nodesIn statements) {e : Expr} (he : e ∈ s.exprs) : e.leaves ⊆ leavesIn statements :=
  fun _ hleaf => List.mem_flatMap.mpr ⟨s, hs, leaves_subset_of_mem_exprs he hleaf⟩

theorem leavesIn_cons (s : Statement) (statements : List Statement) :
    leavesIn (s :: statements) = (s.leaves ++ s.inner.flatMap leaves) ++ leavesIn statements := by
  rw [leavesIn, nodesIn, List.flatMap_cons, List.flatMap_append, ← List.append_assoc, leavesIn]

theorem Stands.holds_own_leaves {isBlock : Bool} {s : Statement} {a b : Cursor}
    (h : s.Stands isBlock a b) : (a.rangeTo b).Holds (s.leaves.map Expr.range) := by
  cases hvalue : s.value? with
  | none =>
    rw [leaves, hvalue]
    exact Cursor.holds_nil _
  | some value =>
    obtain ⟨level, c, d, hvalue', hac, hdb⟩ := h.value_within hvalue
    rw [leaves, hvalue, Option.toList_some, List.flatMap_singleton]
    exact Cursor.holds_mono hac hdb hvalue'.holds_leaves

mutual

/-- The leaves of a statement and of those inside it lie inside it, one behind another. -/
theorem Stands.holds_leaves {isBlock : Bool} {s : Statement} {a b : Cursor} :
    (h : s.Stands isBlock a b) →
      (a.rangeTo b).Holds ((s.leaves ++ s.inner.flatMap leaves).map Expr.range)
  | .defineMixin hat hname hopen hbody hclose => by
    have hle := le_trans hat.le (le_trans (Cursor.le_skipTrivia _) (le_trans hname.le hopen.le))
    exact Cursor.holds_mono hle hclose.le hbody.holds_leaves
  | .rule _ _ _ hopen hbody hclose =>
    Cursor.holds_mono hopen.le hclose.le hbody.holds_leaves
  | .includeMixin .. => Cursor.holds_nil _
  | h@(.assign ..) | h@(.warn ..) | h@(.debug ..) | h@(.declaration ..) => by
    simpa only [inner, List.flatMap_nil, List.append_nil] using h.holds_own_leaves

theorem StandAll.holds_leaves {isBlock : Bool} {statements : List Statement} {a b : Cursor} :
    (h : StandAll isBlock statements a b) →
      (a.rangeTo b).Holds ((leavesIn statements).map Expr.range)
  | .nil _ => Cursor.holds_nil _
  | .cons _ hfirst hrest => by
    rw [leavesIn_cons, List.map_append]
    exact Cursor.holds_mono (Cursor.le_skipTrivia a) (le_refl b)
      (Cursor.holds_append hfirst.holds_leaves hrest.holds_leaves hfirst.le (le_refl _) hrest.le)

end

/-- The leaves of an accepted text lie one behind another. -/
theorem leaves_ordered {source : String} {statements : List Statement}
    (h : parse source = .ok statements) :
    ((leavesIn statements).map Expr.range).Pairwise Range.EndsBefore := by
  obtain ⟨last, hstands⟩ := parse_stands h
  exact hstands.holds_leaves.ordered

/-- Of two leaves, one ends before the other. -/
theorem leaves_apart {source : String} {statements : List Statement}
    (h : parse source = .ok statements) {e e' : Expr} (he : e ∈ leavesIn statements)
    (he' : e' ∈ leavesIn statements) (hne : e ≠ e') :
    e.range.EndsBefore e'.range ∨ e'.range.EndsBefore e.range := by
  let Apart (e e' : Expr) : Prop := e.range.EndsBefore e'.range ∨ e'.range.EndsBefore e.range
  have hsymm : Std.Symm Apart := ⟨fun _ _ => Or.symm⟩
  have hapart : (leavesIn statements).Pairwise Apart :=
    (List.pairwise_map.mp (leaves_ordered h)).imp Or.inl
  exact hapart.forall he he' hne

end Statement

end Stylesheet
