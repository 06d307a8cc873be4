import Stylesheet.Proofs.Evaluation.Effect

/-!
# What a run leaves as it was

A relation between a machine and what a run leaves of it holds of all runs if each single step
keeps it, in success and in failure (`runMixin_keeps`). The first use is that a run comes back to
where it started: the call stack, the selectors and the rule under way are the same again, as many
blocks are open, and under an open block no global variable has changed (`frames_isKept`).
-/

namespace Stylesheet

variable {σ : Type} {α β : Type}

namespace Machine

/-! ## Relations that steps keep -/

/-- Whether a relation holds between each machine and what a run leaves of it. -/
def Keeps (rel : Machine σ → Machine σ → Prop) (run : Run σ α) : Prop :=
  ∀ machine, rel machine (after run machine)

/-- A relation that each step of a run keeps, and that adds up over steps. What is inside a rule or
a mixin leads from the machine behind the entry to the one in front of the exit. -/
structure IsKept (rel : Machine σ → Machine σ → Prop) : Prop where
  refl (machine : Machine σ) : rel machine machine
  trans {a b c : Machine σ} : rel a b → rel b c → rel a c
  host (machine : Machine σ) (host : σ) : rel machine { machine with host := host }
  assign (machine : Machine σ) (name : String) (value : Value) :
    rel machine { machine with scopes := machine.scopes.assign name value }
  define (machine : Machine σ) (name : String) (body : List Statement) :
    rel machine { machine with mixins := machine.mixins.insert name body }
  declare {machine : Machine σ} {rule : Nat} (h : machine.currentRule = some rule)
    (property : String) (value : Value) : rel machine (machine.declare rule property value)
  inRule {machine last : Machine σ} (selector : String)
    (h : rel (machine.enterRule selector) last) : rel machine (last.leaveRule machine.currentRule)
  inMixin {machine last : Machine σ} (name : String) (callSite : Span)
    (h : rel (machine.enterMixin name callSite) last) :
    rel machine (last.leaveMixin machine.scopes.locals)

namespace Keeps

variable {rel : Machine σ → Machine σ → Prop}

theorem pure (hrel : IsKept rel) (a : α) : Keeps rel (Pure.pure a : Run σ α) := hrel.refl

theorem throw (hrel : IsKept rel) (error : CompileError) :
    Keeps rel (MonadExcept.throw error : Run σ α) := hrel.refl

theorem bind (hrel : IsKept rel) {run : Run σ α} {next : α → Run σ β} (hrun : Keeps rel run)
    (hnext : ∀ a, Keeps rel (next a)) : Keeps rel (run >>= next) := by
  intro machine
  have hfirst := hrun machine
  cases h : run machine with
  | ok a middle =>
    rw [after, h] at hfirst
    rw [after_bind_of_ok h]
    exact hrel.trans hfirst (hnext a middle)
  | error error last =>
    rw [after, h] at hfirst
    rwa [after_bind_of_error h]

end Keeps

end Machine

/-! ## Steps and runs -/

section

variable {setting : Setting σ} {rel : Machine σ → Machine σ → Prop}
  {runMixin : List Statement → Run σ Unit}

open Machine

mutual

theorem Statement.run_keeps (hrel : IsKept rel) (hmixin : ∀ body, Keeps rel (runMixin body))
    (s : Statement) : Keeps rel (s.run setting runMixin) := by
  intro machine
  have heffect := s.effect_run setting runMixin machine
  generalize after (s.run setting runMixin) machine = last at heffect ⊢
  cases heffect with
  | quiet _ host => exact hrel.host machine host
  | assign _ name _ host value =>
    exact hrel.trans (hrel.host machine host) (hrel.assign { machine with host := host } name value)
  | define _ name body host =>
    exact hrel.trans (hrel.host machine host) (hrel.define { machine with host := host } name body)
  | inMixin _ callSite host hbody =>
    exact hrel.trans (hrel.host machine host) (hrel.inMixin _ callSite (hmixin _ _))
  | inRule _ selector body host =>
    exact hrel.trans (hrel.host machine host)
      (hrel.inRule _ (Statement.runAll_keeps hrel hmixin body _))
  | declare _ property _ host value hrule =>
    have hrule' : { machine with host := host }.currentRule = some _ := hrule
    exact hrel.trans (hrel.host machine host) (hrel.declare hrule' property value)

theorem Statement.runAll_keeps (hrel : IsKept rel) (hmixin : ∀ body, Keeps rel (runMixin body)) :
    (statements : List Statement) → Keeps rel (Statement.runAll setting runMixin statements)
  | [] => by
    rw [Statement.runAll]
    exact .pure hrel ()
  | s :: statements => by
    rw [Statement.runAll]
    exact .bind hrel (Statement.run_keeps hrel hmixin s) fun _ =>
      Statement.runAll_keeps hrel hmixin statements

end

/-- A relation that each step keeps is kept by the bodies of mixins, to whatever depth. -/
theorem runMixin_keeps (setting : Setting σ) (hrel : IsKept rel) (depth : Nat)
    (statements : List Statement) : Keeps rel (setting.runMixin depth statements) := by
  induction depth generalizing statements with
  | zero => exact .throw hrel .tooDeep
  | succ depth ih =>
    rw [Setting.runMixin, runBlock_eq]
    exact Statement.runAll_keeps hrel ih statements

end

/-! ## The frame of a run -/

namespace Scopes

theorem length_rebind? {name : String} {value : Value} {scopes scopes' : List (Bindings Value)}
    (h : rebind? name value scopes = some scopes') : scopes'.length = scopes.length := by
  induction scopes generalizing scopes' with
  | nil => simp [rebind?] at h
  | cons scope scopes ih =>
    rw [rebind?] at h
    split at h
    · obtain rfl := Option.some.inj h
      rfl
    · obtain ⟨rest, hrest, rfl⟩ := Option.map_eq_some_iff.mp h
      simp [ih hrest]

theorem length_locals_assign (scopes : Scopes) (name : String) (value : Value) :
    (scopes.assign name value).locals.length = scopes.locals.length := by
  rw [assign]
  split
  · rename_i locals h
    exact length_rebind? h
  · rename_i scope locals _ h
    simp [h]
  · rename_i h
    rfl

/-- Under an open block, an assignment leaves the globals alone. -/
theorem globals_assign {scopes : Scopes} (h : scopes.locals ≠ []) (name : String) (value : Value) :
    (scopes.assign name value).globals = scopes.globals := by
  rw [assign]
  split
  · rfl
  · rfl
  · rename_i hnil
    contradiction

end Scopes

/-- What a run leaves as it was. -/
structure Machine.Frames (before last : Machine σ) : Prop where
  stack_eq : last.stack = before.stack
  selectors_eq : last.selectors = before.selectors
  currentRule_eq : last.currentRule = before.currentRule
  length_locals : last.scopes.locals.length = before.scopes.locals.length
  globals_eq : before.scopes.locals ≠ [] → last.scopes.globals = before.scopes.globals

namespace Machine

theorem Frames.trans {a b c : Machine σ} (hab : Frames a b) (hbc : Frames b c) : Frames a c where
  stack_eq := hbc.stack_eq.trans hab.stack_eq
  selectors_eq := hbc.selectors_eq.trans hab.selectors_eq
  currentRule_eq := hbc.currentRule_eq.trans hab.currentRule_eq
  length_locals := hbc.length_locals.trans hab.length_locals
  globals_eq ha := by
    have hb : b.scopes.locals ≠ [] := by
      rw [← List.length_pos_iff, hab.length_locals]
      exact List.length_pos_iff.mpr ha
    exact (hbc.globals_eq hb).trans (hab.globals_eq ha)

/-- Every step of a run comes back to where it started. -/
theorem frames_isKept : IsKept (Frames (σ := σ)) where
  refl _ := ⟨rfl, rfl, rfl, rfl, fun _ => rfl⟩
  trans := Frames.trans
  host _ _ := ⟨rfl, rfl, rfl, rfl, fun _ => rfl⟩
  assign machine name value := ⟨rfl, rfl, rfl, machine.scopes.length_locals_assign name value,
    fun h => Scopes.globals_assign h name value⟩
  define _ _ _ := ⟨rfl, rfl, rfl, rfl, fun _ => rfl⟩
  declare _ _ _ := ⟨rfl, rfl, rfl, rfl, fun _ => rfl⟩
  inRule {machine last} selector h := by
    refine ⟨h.stack_eq, ?_, rfl, ?_, fun _ => h.globals_eq (List.cons_ne_nil _ _)⟩
    · have hselectors : last.selectors = selector :: machine.selectors := h.selectors_eq
      simp [leaveRule, hselectors]
    · have hlocals : last.scopes.locals.length = machine.scopes.locals.length + 1 :=
        h.length_locals
      simp [leaveRule, Scopes.leave, hlocals]
  inMixin {machine last} name callSite h := by
    refine ⟨?_, h.selectors_eq, h.currentRule_eq, rfl,
      fun _ => h.globals_eq (List.cons_ne_nil _ _)⟩
    have hstack : last.stack = machine.stack.push _ callSite := h.stack_eq
    simp [leaveMixin, hstack]

end Machine

end Stylesheet
