import Stylesheet.Proofs.Evaluation.Reach
import Stylesheet.Proofs.Evaluation.Telling

/-!
# Where the evaluation of an expression speaks and fails

Every diagnostic that a watched host is handed while an expression is evaluated is announced by a
division that the evaluation has come to, and every error with a place has that of a node.
-/

namespace Stylesheet

variable {σ : Type} {setting : Setting (Transcript σ)} {scopes : Scopes} {stack : CallStack}

/-! ## Expressions -/

theorem announceDivision_tells (hnotes : setting.Notes) {range : Range} {ranges : List Range}
    (hrange : range ∈ ranges) (l r : Value) (t : Transcript σ) :
    Tells id
      (fun diagnostic => (l.isNumber && r.isNumber) = true ∧
        setting.isCancelled (setting.meanwhile t) = false ∧ ∃ span, setting.span range = .ok span ∧
          diagnostic = Setting.warning (divisionMessage l r) span true stack)
      (setting.Faults ranges) (fun _ => True) t
      (announceDivision setting stack range l r t) := by
  rw [announceDivision]
  by_cases hnumbers : (l.isNumber && r.isNumber) = true
  · rw [if_pos hnumbers]
    apply Tells.poll_bind hnotes
    intro hgoes
    apply Tells.span_bind hrange
    intro span hspan
    apply (hnotes.deliver _ _).mono
    · intro diagnostic h
      exact ⟨hnumbers, hgoes, span, hspan, h⟩
    · intro error h
      exact h.mono (by simp)
  · rw [if_neg hnumbers]
    exact Tells.pure () trivial

theorem orFaultAt_tells {good : Diagnostic → Prop} {range : Range} {ranges : List Range}
    (hrange : range ∈ ranges) (result : Except OperationFault Value) (t : Transcript σ) :
    Tells id good (setting.Faults ranges) (fun _ => True) t
      (orFaultAt setting range result t) := by
  cases result with
  | ok value => exact Tells.pure value trivial
  | error fault =>
    apply Tells.span_bind hrange
    intro span hspan
    exact Tells.throw (.within hrange hspan rfl (by simp))

/-- The evaluation of an expression announces a diagnostic. -/
def Expr.Announces (setting : Setting σ) (scopes : Scopes) (stack : CallStack) (e : Expr) (host : σ)
    (diagnostic : Diagnostic) : Prop :=
  ∃ range l r span, e.Divides setting scopes stack host range l r ∧
    setting.span range = .ok span ∧
    diagnostic = Setting.warning (divisionMessage l r) span true stack

theorem Expr.Announces.lift {setting : Setting σ} {e part : Expr} {host host₁ : σ}
    {diagnostic : Diagnostic} (h : part.Announces setting scopes stack host₁ diagnostic)
    (hlift : ∀ node host', Comes setting scopes stack part host₁ node host' →
      Comes setting scopes stack e host node host') :
    e.Announces setting scopes stack host diagnostic := by
  obtain ⟨range, l, r, span, hdivides, hspan, rfl⟩ := h
  exact ⟨range, l, r, span, hdivides.lift hlift, hspan, rfl⟩

/-- The errors that the nodes of an expression can give. -/
abbrev Expr.Faults (setting : Setting σ) (e : Expr) : CompileError → Prop :=
  setting.Faults (e.nodes.map Expr.range)

theorem Expr.Faults.of_part {setting : Setting σ} {e part : Expr} {error : CompileError}
    (h : part.Faults setting error) (hsub : ∀ node ∈ part.nodes, node ∈ e.nodes) :
    e.Faults setting error := by
  apply h.mono
  intro range hrange
  obtain ⟨node, hnode, rfl⟩ := List.mem_map.mp hrange
  exact List.mem_map_of_mem (hsub node hnode)

mutual

theorem Expr.eval_tells (hnotes : setting.Notes) (t : Transcript σ) :
    (e : Expr) → Tells id (e.Announces setting scopes stack t) (e.Faults setting) (fun _ => True) t
      (e.eval setting scopes stack t)
  | .number _ value unit => Tells.pure (Value.number value unit) trivial
  | .text _ s quoted => Tells.pure (Value.text s quoted) trivial
  | .var range name => by
    rw [Expr.eval]
    cases scopes.get? name with
    | some value => exact Tells.pure value trivial
    | none =>
      apply Tells.span_bind List.mem_cons_self
      intro span hspan
      exact Tells.throw (.within List.mem_cons_self hspan rfl (by simp))
  | .negate range operand => by
    rw [Expr.eval]
    apply Tells.andThen
    · apply (Expr.eval_tells hnotes t operand).mono
      · intro d h
        exact h.lift fun _ _ => .operand
      · intro error h
        exact h.of_part fun _ => List.mem_cons_of_mem _
    · intro value t' _
      exact orFaultAt_tells List.mem_cons_self value.negate t'
  | .list range items => by
    rw [Expr.eval]
    apply Tells.andThen
    · apply (Expr.evalAll_tells hnotes t items).mono
      · intro d hannounces
        obtain ⟨before, item, after, values, t₁, rfl, hbefore, h⟩ := hannounces
        exact h.lift fun _ _ => .item hbefore
      · intro error h
        exact h.mono fun range' hrange' => List.mem_cons_of_mem _ hrange'
    · intro values t' _
      exact Tells.pure _ trivial
  | .binary range operator left right => by
    rw [Expr.eval]
    apply Tells.andThen
    · apply (Expr.eval_tells hnotes t left).mono
      · intro d h
        exact h.lift fun _ _ => .left
      · intro error h
        exact h.of_part fun _ hnode => List.mem_cons_of_mem _ (List.mem_append_left _ hnode)
    intro l t₁ hleft
    apply Tells.andThen
    · apply (Expr.eval_tells hnotes t₁ right).mono
      · intro d h
        exact h.lift fun _ _ => .right hleft
      · intro error h
        exact h.of_part fun _ hnode => List.mem_cons_of_mem _ (List.mem_append_right _ hnode)
    intro r t₂ hright
    by_cases hdivide : operator = .divide
    · subst hdivide
      rw [if_pos rfl]
      apply Tells.andThen
      · apply (announceDivision_tells hnotes List.mem_cons_self l r t₂).mono_good
        intro d hannounces
        obtain ⟨hnumbers, hgoes, span, hspan, rfl⟩ := hannounces
        exact ⟨range, l, r, span, ⟨.here, hleft, hright, hnumbers, hgoes⟩, hspan, rfl⟩
      · intro _ t₃ _
        exact orFaultAt_tells List.mem_cons_self (Value.combine .divide l r) t₃
    · rw [if_neg hdivide]
      exact orFaultAt_tells List.mem_cons_self (Value.combine operator l r) t₂

/-- What the evaluation of items announces is announced by one of them. -/
theorem Expr.evalAll_tells (hnotes : setting.Notes) (t : Transcript σ) :
    (items : List Expr) → Tells id
      (fun diagnostic => ∃ before item after values t₁, items = before ++ item :: after ∧
        Expr.evalAll setting scopes stack before t = .ok values t₁ ∧
        item.Announces setting scopes stack t₁ diagnostic)
      (setting.Faults ((Expr.nodesIn items).map Expr.range)) (fun _ => True) t
      (Expr.evalAll setting scopes stack items t)
  | [] => Tells.pure [] trivial
  | item :: items => by
    rw [Expr.evalAll]
    apply Tells.andThen
    · apply (Expr.eval_tells hnotes t item).mono
      · intro d h
        exact ⟨[], item, items, [], t, rfl, rfl, h⟩
      · intro error h
        apply h.mono
        intro range hrange
        rw [Expr.nodesIn, ← List.cons_append, List.map_append]
        exact List.mem_append_left _ hrange
    intro value t₁ hitem
    apply Tells.andThen
    · apply (Expr.evalAll_tells hnotes t₁ items).mono
      · intro d hannounces
        obtain ⟨before, item', after, values, t₂, rfl, hbefore, h⟩ := hannounces
        refine ⟨item :: before, item', after, value :: values, t₂, rfl, ?_, h⟩
        rw [Expr.evalAll, bind_of_ok hitem, bind_of_ok hbefore]
        rfl
      · intro error h
        apply h.mono
        intro range hrange
        rw [Expr.nodesIn, ← List.cons_append, List.map_append]
        exact List.mem_append_right _ hrange
    intro values t' _
    exact Tells.pure _ trivial

end

end Stylesheet
