import Stylesheet.Proofs.Evaluation.Reach
import Stylesheet.Proofs.Evaluation.Script

/-!
# What a statement does to the machine

Whether it succeeds or fails, a statement does one of six things to the machine, at most one of
which is open to its kind (`Statement.effect_run`). Whatever is to be said of all runs is said of
these.
-/

namespace Stylesheet

variable {σ : Type} {α β κ : Type}

namespace Machine

/-- The machine that a run leaves, in success and in failure. -/
def after (run : Run σ α) (machine : Machine σ) : Machine σ :=
  match run machine with
  | .ok _ last => last
  | .error _ last => last

/-! ## The machine behind a step -/

theorem after_bind_of_ok {run : Run σ α} {next : α → Run σ β} {machine middle : Machine σ} {a : α}
    (h : run machine = .ok a middle) : after (run >>= next) machine = after (next a) middle := by
  rw [after, bind_of_ok h, ← after]

theorem after_bind_of_error {run : Run σ α} {next : α → Run σ β} {machine last : Machine σ}
    {error : CompileError} (h : run machine = .error error last) :
    after (run >>= next) machine = last := by
  rw [after, bind_of_error h]

/-- A rule or a mixin is left however its body ends. -/
theorem after_bracket (keep : Machine σ → κ) (enter : Machine σ → Machine σ)
    (leave : κ → Machine σ → Machine σ) (body : Run σ α) (machine : Machine σ) :
    after (bracket keep enter leave body) machine =
      leave (keep machine) (after body (enter machine)) := by
  rw [after, after, bracket]
  cases body (enter machine) <;> rfl

section

variable {setting : Setting σ} {machine : Machine σ} {p : Machine σ → Prop}

theorem after_check_bind {next : Unit → Run σ β} (hstop : ∀ host, p { machine with host := host })
    (hnext : ∀ host, p (after (next ()) { machine with host := host })) :
    p (after (onHost setting.checkCancelled >>= next) machine) := by
  cases h : setting.isCancelled (machine.polled setting).host with
  | true =>
    rw [after_bind_of_error (check_of_true h)]
    exact hstop _
  | false =>
    rw [after_bind_of_ok (check_of_false h)]
    exact hnext _

theorem after_value_bind {e : Expr} {next : Value → Run σ β}
    (hstop : ∀ host, p { machine with host := host })
    (hnext : ∀ value host, p (after (next value) { machine with host := host })) :
    p (after (setting.value e >>= next) machine) := by
  have hvalue : setting.value e machine =
      onHost (e.eval setting machine.scopes machine.stack) machine := rfl
  rw [onHost] at hvalue
  cases hact : e.eval setting machine.scopes machine.stack machine.host with
  | ok value host =>
    rw [hact] at hvalue
    rw [after_bind_of_ok hvalue]
    exact hnext value host
  | error error host =>
    rw [hact] at hvalue
    rw [after_bind_of_error hvalue]
    exact hstop host

theorem after_span_bind {range : Range} {next : Span → Run σ β} (hstop : p machine)
    (hnext : ∀ span, setting.span range = .ok span → p (after (next span) machine)) :
    p (after (MonadExcept.ofExcept (setting.span range) >>= next) machine) := by
  cases h : setting.span range with
  | ok span => exact hnext span h
  | error error => exact hstop

theorem after_report (hstop : ∀ host, p { machine with host := host }) (diagnostic : Diagnostic) :
    p (after (setting.reportUnlessCancelled diagnostic) machine) := by
  rw [after, Setting.reportUnlessCancelled, onHost]
  cases (do setting.checkCancelled; setting.deliver diagnostic : HostM _ _ _) machine.host with
  | ok _ host => exact hstop host
  | error error host => exact hstop host

end

end Machine

/-! ## Statements -/

open Machine

namespace Statement

/-- What a statement can do to a machine. In a rule and in a mixin, that is what the body does to
the machine behind the entry. -/
inductive Effect (setting : Setting σ) (runMixin : List Statement → Run σ Unit)
    (machine : Machine σ) : Statement → Machine σ → Prop where
  /-- The host may have acted, and nothing else has happened. -/
  | quiet (s : Statement) (host : σ) :
      Effect setting runMixin machine s { machine with host := host }
  | assign (range : Range) (name : String) (e : Expr) (host : σ) (value : Value) :
      Effect setting runMixin machine (.assign range name e)
        { machine with host := host, scopes := machine.scopes.assign name value }
  | define (range : Range) (name : String) (body : List Statement) (host : σ) :
      Effect setting runMixin machine (.defineMixin range name body)
        { machine with host := host, mixins := machine.mixins.insert name body }
  | inMixin (range : Range) {name : String} (callSite : Span) {body : List Statement} (host : σ)
      (hbody : machine.mixins.get? name = some body) :
      Effect setting runMixin machine (.includeMixin range name)
        ((after (runMixin body) ({ machine with host := host }.enterMixin name callSite)).leaveMixin
          machine.scopes.locals)
  | inRule (range : Range) (selector : String) (body : List Statement) (host : σ) :
      Effect setting runMixin machine (.rule range selector body)
        ((after (runAll setting runMixin body)
          ({ machine with host := host }.enterRule
            (resolveSelector machine.selectors.head? selector))).leaveRule machine.currentRule)
  | declare (range : Range) (property : String) (e : Expr) (host : σ) (value : Value) {rule : Nat}
      (hrule : machine.currentRule = some rule) :
      Effect setting runMixin machine (.declaration range property e)
        ({ machine with host := host }.declare rule property value)

/-- A statement has one of the effects of its kind, or the evaluation ends in it before that. -/
theorem effect_run (setting : Setting σ) (runMixin : List Statement → Run σ Unit)
    (machine : Machine σ) (s : Statement) :
    s.Effect setting runMixin machine (after (s.run setting runMixin) machine) := by
  have hstop (host : σ) : s.Effect setting runMixin machine { machine with host := host } :=
    .quiet s host
  cases s with
  | assign range name e =>
    rw [run]
    refine after_check_bind hstop fun _ => after_value_bind hstop fun value host => ?_
    exact .assign range name e host value
  | warn range e =>
    rw [run]
    refine after_check_bind hstop fun _ => after_value_bind hstop fun value host => ?_
    exact after_span_bind (hstop host) fun span _ => after_report (.quiet _) _
  | debug range e =>
    rw [run]
    refine after_check_bind hstop fun _ => after_value_bind hstop fun value host => ?_
    exact after_span_bind (hstop host) fun span _ => after_report (.quiet _) _
  | defineMixin range name body =>
    rw [run]
    exact after_check_bind hstop (.define range name body)
  | includeMixin range name =>
    rw [run]
    refine after_check_bind hstop fun host => after_span_bind (hstop host) fun span _ => ?_
    rw [after, get_bind]
    cases hbody : { machine with host := host }.mixins.get? name with
    | none => exact hstop host
    | some body =>
      rw [← after, after_bracket]
      exact .inMixin range span host hbody
  | rule range selector body =>
    rw [run]
    refine after_check_bind hstop fun host => ?_
    rw [after, get_bind, ← after, after_bracket]
    exact .inRule range selector body host
  | declaration range property e =>
    rw [run]
    refine after_check_bind hstop fun host => ?_
    rw [after, get_bind]
    generalize hasked : { machine with host := host } = asked
    cases hrule : asked.currentRule with
    | none => exact after_span_bind (hasked ▸ hstop host) fun span _ => hasked ▸ hstop host
    | some rule =>
      subst hasked
      exact after_value_bind (.quiet _) fun value host =>
        .declare range property e host value hrule

end Statement

end Stylesheet
