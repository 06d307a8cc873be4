import Stylesheet.Proofs.Evaluation.Frame
import Stylesheet.Proofs.Evaluation.Inclusions

/-!
# The mixins that a run knows

Every mixin that is known at some moment has the body of a definition of it in the program, however
often it was defined before. So a run never leaves its program (`ComesIn.within`).
-/

namespace Stylesheet

variable {σ : Type} {program : List Statement}

/-! ## Programs -/

namespace Statement

mutual

theorem mem_inner_of_inner {s t : Statement} (ht : t ∈ s.inner) :
    (outer : Statement) → s ∈ outer.inner → t ∈ outer.inner
  | .defineMixin _ _ body, hs | .rule _ _ body, hs => mem_nodesIn_of_inner ht body hs
  | .assign .., hs | .warn .., hs | .debug .., hs | .includeMixin .., hs | .declaration .., hs => by
    contradiction

/-- What is inside a statement of a program is in the program. -/
theorem mem_nodesIn_of_inner {s t : Statement} (ht : t ∈ s.inner) :
    (program : List Statement) → s ∈ nodesIn program → t ∈ nodesIn program
  | [], hs => by contradiction
  | first :: rest, hs => by
    rw [nodesIn] at hs ⊢
    rcases List.mem_cons.mp hs with rfl | hs
    · exact List.mem_cons_of_mem _ (List.mem_append_left _ ht)
    rcases List.mem_append.mp hs with hs | hs
    · exact List.mem_cons_of_mem _ (List.mem_append_left _ (mem_inner_of_inner ht first hs))
    · exact List.mem_cons_of_mem _ (List.mem_append_right _ (mem_nodesIn_of_inner ht rest hs))

end

end Statement

/-! ## Runs -/

/-- Whether each mixin that a machine knows is one that a program defines. -/
def Machine.IsDefinedBy (program : List Statement) (machine : Machine σ) : Prop :=
  ∀ name body, machine.mixins.get? name = some body →
    ∃ range, .defineMixin range name body ∈ Statement.nodesIn program

/-- A machine that has just started knows no mixins. -/
theorem Machine.isDefinedBy_start (program : List Statement) (host : σ) :
    Machine.IsDefinedBy program { host := host } := by
  intro name body hbody
  contradiction

/-- The body of a mixin is in the program that defines it. -/
theorem Machine.IsDefinedBy.mem_nodesIn {machine : Machine σ} (h : machine.IsDefinedBy program)
    {name : String} {body : List Statement} (hbody : machine.mixins.get? name = some body) :
    ∀ t ∈ Statement.nodesIn body, t ∈ Statement.nodesIn program := by
  intro t ht
  obtain ⟨range, hdefines⟩ := h name body hbody
  exact Statement.mem_nodesIn_of_inner (s := .defineMixin range name body) ht program hdefines

open Machine (after)

namespace Statement

variable {setting : Setting σ}

/-- Whether bodies of mixins leave a machine with mixins of a program. -/
def BodiesDefine (program : List Statement) (runMixin : List Statement → Run σ Unit) : Prop :=
  ∀ body machine, Machine.IsDefinedBy program machine →
    (∀ t ∈ nodesIn body, t ∈ nodesIn program) → (after (runMixin body) machine).IsDefinedBy program

mutual

/-- A statement defines at most a mixin of its program, in success and in failure. -/
theorem run_isDefinedBy {runMixin : List Statement → Run σ Unit}
    (hmixin : BodiesDefine program runMixin) {machine : Machine σ}
    (h : machine.IsDefinedBy program) (s : Statement)
    (hin : ∀ t ∈ nodesIn [s], t ∈ nodesIn program) :
    (after (s.run setting runMixin) machine).IsDefinedBy program := by
  have heffect := s.effect_run setting runMixin machine
  generalize after (s.run setting runMixin) machine = last at heffect ⊢
  cases heffect with
  | quiet | assign | declare => exact h
  | define range name body host =>
    intro other body' hbody'
    rw [Bindings.get?_insert] at hbody'
    split at hbody'
    · rename_i hother
      obtain rfl := Option.some.inj hbody'
      exact ⟨range, hother ▸ hin _ List.mem_cons_self⟩
    · exact h other body' hbody'
  | inMixin _ callSite host hbody => exact hmixin _ _ h (h.mem_nodesIn hbody)
  | inRule range selector body host =>
    let inside := { machine with host := host }.enterRule
      (resolveSelector machine.selectors.head? selector)
    have hinside : inside.IsDefinedBy program := h
    exact runAll_isDefinedBy hmixin hinside body (forall_nodes_inner hin)

theorem runAll_isDefinedBy {runMixin : List Statement → Run σ Unit}
    (hmixin : BodiesDefine program runMixin) {machine : Machine σ}
    (h : machine.IsDefinedBy program) :
    (statements : List Statement) → (∀ t ∈ nodesIn statements, t ∈ nodesIn program) →
      (after (runAll setting runMixin statements) machine).IsDefinedBy program
  | [], _ => by
    rw [runAll]
    exact h
  | s :: statements, hin => by
    have hfirst : (after (s.run setting runMixin) machine).IsDefinedBy program :=
      run_isDefinedBy hmixin h s (forall_nodes_first hin)
    rw [runAll]
    cases hrun : s.run setting runMixin machine with
    | ok _ middle =>
      rw [after, hrun] at hfirst
      rw [Machine.after_bind_of_ok hrun]
      exact runAll_isDefinedBy hmixin hfirst statements (forall_nodes_rest hin)
    | error error last =>
      rw [after, hrun] at hfirst
      rwa [Machine.after_bind_of_error hrun]

end

/-- However deep mixins are nested, they define mixins of the program only. -/
theorem runMixin_bodiesDefine (setting : Setting σ) (depth : Nat) :
    BodiesDefine program (setting.runMixin depth) := by
  induction depth with
  | zero => exact fun body machine h _ => h
  | succ depth ih =>
    intro body machine h hin
    rw [Setting.runMixin, runBlock_eq]
    exact runAll_isDefinedBy ih h body hin

theorem isDefinedBy_of_run {depth : Nat} {s : Statement} {machine machine₁ : Machine σ}
    (hrun : s.run setting (setting.runMixin depth) machine = .ok () machine₁)
    (h : machine.IsDefinedBy program) (hin : ∀ t ∈ nodesIn [s], t ∈ nodesIn program) :
    machine₁.IsDefinedBy program := by
  have hlast : (after (s.run setting (setting.runMixin depth)) machine).IsDefinedBy program :=
    run_isDefinedBy (runMixin_bodiesDefine setting depth) h s hin
  rwa [after, hrun] at hlast

/-- A run comes to statements of its program only, and knows mixins of the program there. -/
theorem ComesIn.within {depth : Nat} {statements : List Statement} {chain : List Inclusion}
    {t : Statement} {machine machine' : Machine σ}
    (h : ComesIn setting depth statements machine chain t machine')
    (hdefined : machine.IsDefinedBy program) (hin : ∀ s ∈ nodesIn statements, s ∈ nodesIn program) :
    t ∈ nodesIn program ∧ machine'.IsDefinedBy program := by
  induction h with
  | here => exact ⟨hin _ List.mem_cons_self, hdefined⟩
  | later hrun h ih =>
    exact ih (isDefinedBy_of_run hrun hdefined (forall_nodes_first hin)) (forall_nodes_rest hin)
  | inRule hgoes h ih => exact ih hdefined (forall_nodes_inner hin)
  | inMixin hgoes hspan hbody h ih => exact ih hdefined (hdefined.mem_nodesIn hbody)

end Statement

end Stylesheet
