import Stylesheet.Evaluation.Statement
import Stylesheet.Proofs.Evaluation.Script
import Stylesheet.Proofs.Syntax.StatementGrammar

/-!
# What an evaluation comes to

The statements and expressions that an evaluation comes to, each with the state in which it does,
and what it says there. The relations follow the evaluator: what comes later is reached only if
all that comes before has succeeded.
-/

namespace Stylesheet

variable {σ : Type}

/-! ## Expressions -/

namespace Expr

/-- The evaluation of an expression comes to a node of it, each with the host at that moment. -/
inductive Comes (setting : Setting σ) (scopes : Scopes) (stack : CallStack) :
    Expr → σ → Expr → σ → Prop where
  | here {e : Expr} {host : σ} : Comes setting scopes stack e host e host
  | operand {range : Range} {e node : Expr} {host host' : σ}
      (h : Comes setting scopes stack e host node host') :
      Comes setting scopes stack (.negate range e) host node host'
  | left {range : Range} {operator : Operator} {left right node : Expr} {host host' : σ}
      (h : Comes setting scopes stack left host node host') :
      Comes setting scopes stack (.binary range operator left right) host node host'
  | right {range : Range} {operator : Operator} {left right node : Expr} {host host₁ host' : σ}
      {value : Value} (hleft : left.eval setting scopes stack host = .ok value host₁)
      (h : Comes setting scopes stack right host₁ node host') :
      Comes setting scopes stack (.binary range operator left right) host node host'
  | item {range : Range} {before after : List Expr} {item node : Expr} {host host₁ host' : σ}
      {values : List Value}
      (hbefore : evalAll setting scopes stack before host = .ok values host₁)
      (h : Comes setting scopes stack item host₁ node host') :
      Comes setting scopes stack (.list range (before ++ item :: after)) host node host'

variable {setting : Setting σ} {scopes : Scopes} {stack : CallStack}

theorem mem_nodesIn_of_mem {e node : Expr} {items : List Expr} (he : e ∈ items)
    (hnode : node ∈ e.nodes) : node ∈ nodesIn items := by
  induction items with
  | nil => contradiction
  | cons item items ih =>
    rw [nodesIn]
    rcases List.mem_cons.mp he with rfl | he
    · rcases List.mem_cons.mp hnode with rfl | hnode
      · exact List.mem_cons_self
      · exact List.mem_cons_of_mem _ (List.mem_append_left _ hnode)
    · exact List.mem_cons_of_mem _ (List.mem_append_right _ (ih he))

theorem Comes.mem_nodes {e node : Expr} {host host' : σ}
    (h : Comes setting scopes stack e host node host') : node ∈ e.nodes := by
  induction h with
  | here => exact self_mem_nodes _
  | operand h ih => exact List.mem_cons_of_mem _ ih
  | left h ih => exact List.mem_cons_of_mem _ (List.mem_append_left _ ih)
  | right hleft h ih => exact List.mem_cons_of_mem _ (List.mem_append_right _ ih)
  | item hbefore h ih =>
    apply List.mem_cons_of_mem
    exact mem_nodesIn_of_mem (List.mem_append_right _ List.mem_cons_self) ih

/-- The evaluation of an expression comes to a division over a range, whose operands have two
numbers as their values, and the host has not cancelled. -/
inductive Divides (setting : Setting σ) (scopes : Scopes) (stack : CallStack) (e : Expr)
    (host : σ) : Range → Value → Value → Prop where
  | intro {range : Range} {left right : Expr} {host₁ host₂ host₃ : σ} {l r : Value}
      (hcomes : Comes setting scopes stack e host (.binary range .divide left right) host₁)
      (hleft : left.eval setting scopes stack host₁ = .ok l host₂)
      (hright : right.eval setting scopes stack host₂ = .ok r host₃)
      (hnumbers : (l.isNumber && r.isNumber) = true)
      (hgoes : setting.isCancelled (setting.meanwhile host₃) = false) :
      Divides setting scopes stack e host range l r

/-- What divides on the way to a part of an expression divides on the way through it. -/
theorem Divides.lift {e part : Expr} {host host₁ : σ} {range : Range} {l r : Value}
    (h : Divides setting scopes stack part host₁ range l r)
    (hlift : ∀ node host', Comes setting scopes stack part host₁ node host' →
      Comes setting scopes stack e host node host') :
    Divides setting scopes stack e host range l r := by
  obtain ⟨hcomes, hleft, hright, hnumbers, hgoes⟩ := h
  exact ⟨hlift _ _ hcomes, hleft, hright, hnumbers, hgoes⟩

theorem Divides.mem_nodes {e : Expr} {host : σ} {range : Range} {l r : Value}
    (h : Divides setting scopes stack e host range l r) :
    ∃ left right, .binary range .divide left right ∈ e.nodes := by
  obtain ⟨hcomes, _, _, _, _⟩ := h
  exact ⟨_, _, hcomes.mem_nodes⟩

end Expr

/-! ## Statements -/

/-- How the bodies of mixins run that may be nested up to a depth. -/
def Setting.runMixin (setting : Setting σ) : Nat → List Statement → Run σ Unit
  | 0 => fun _ => throw .tooDeep
  | depth + 1 => runBlock setting depth

theorem runBlock_eq (setting : Setting σ) (depth : Nat) (statements : List Statement) :
    runBlock setting depth statements =
      Statement.runAll setting (setting.runMixin depth) statements := by
  cases depth <;> rfl

/-- What an inclusion does once it is known whether it has a span and a body. -/
theorem Statement.run_includeMixin (setting : Setting σ) (runMixin : List Statement → Run σ Unit)
    (range : Range) (name : String) (before : Machine σ) :
    let machine := before.polled setting
    (Statement.includeMixin range name).run setting runMixin before =
      if setting.isCancelled machine.host then .error .cancelled machine
      else match setting.span range with
        | .error error => .error error machine
        | .ok span =>
          match machine.mixins.get? name with
          | none => .error (.undefinedMixin name span) machine
          | some body =>
            Machine.bracket (·.scopes.locals) (Machine.enterMixin name span) Machine.leaveMixin
              (runMixin body) machine := by
  intro machine
  rw [Statement.run]
  by_cases hcancelled : setting.isCancelled machine.host = true
  · rw [if_pos hcancelled, bind_of_error (Machine.check_of_true hcancelled)]
  · have hgoes : setting.isCancelled machine.host = false := Bool.eq_false_iff.mpr hcancelled
    rw [if_neg hcancelled, bind_of_ok (Machine.check_of_false hgoes)]
    cases setting.span range with
    | error error => rfl
    | ok span =>
      have hspan : (MonadExcept.ofExcept (.ok span) : Run σ Span) machine = .ok span machine := rfl
      rw [bind_of_ok hspan, get_bind]
      cases machine.mixins.get? name <;> rfl

namespace Statement

/-- A run of statements, in which mixins may be nested up to a depth, comes to a statement, each
with the machine at that moment. -/
inductive Comes (setting : Setting σ) :
    Nat → List Statement → Machine σ → Statement → Machine σ → Prop where
  | here {depth : Nat} {s : Statement} {statements : List Statement} {machine : Machine σ} :
      Comes setting depth (s :: statements) machine s machine
  | later {depth : Nat} {s t : Statement} {statements : List Statement}
      {machine machine₁ machine' : Machine σ}
      (hrun : s.run setting (setting.runMixin depth) machine = .ok () machine₁)
      (h : Comes setting depth statements machine₁ t machine') :
      Comes setting depth (s :: statements) machine t machine'
  | inRule {depth : Nat} {range : Range} {selector : String} {body statements : List Statement}
      {t : Statement} {machine machine' : Machine σ}
      (hgoes : setting.isCancelled (machine.polled setting).host = false)
      (h : Comes setting depth body
        ((machine.polled setting).enterRule (resolveSelector machine.selectors.head? selector)) t
        machine') :
      Comes setting depth (.rule range selector body :: statements) machine t machine'
  | inMixin {depth : Nat} {range : Range} {name : String} {body statements : List Statement}
      {t : Statement} {machine machine' : Machine σ} {callSite : Span}
      (hgoes : setting.isCancelled (machine.polled setting).host = false)
      (hspan : setting.span range = .ok callSite)
      (hbody : machine.mixins.get? name = some body)
      (h : Comes setting depth body ((machine.polled setting).enterMixin name callSite) t
        machine') :
      Comes setting (depth + 1) (.includeMixin range name :: statements) machine t machine'

/-- The expression that a statement evaluates. A declaration outside a rule evaluates none. -/
def operand? (machine : Machine σ) : Statement → Option Expr
  | .assign _ _ e | .warn _ e | .debug _ e => some e
  | .declaration _ _ e => if machine.currentRule.isSome then some e else none
  | _ => none

/-- What a statement says about a range, at a span, if a run comes to it with a machine. The host
has not cancelled when the statement starts, nor when it speaks. -/
inductive Says (setting : Setting σ) :
    Statement → Machine σ → Range → Span → Diagnostic → Prop where
  | warn {range : Range} {e : Expr} {machine : Machine σ} {value : Value} {host : σ} {span : Span}
      (hstarts : setting.isCancelled (machine.polled setting).host = false)
      (heval : e.eval setting machine.scopes machine.stack (machine.polled setting).host =
        .ok value host)
      (hgoes : setting.isCancelled (setting.meanwhile host) = false) :
      Says setting (.warn range e) machine range span
        (Setting.warning (messageOf value) span false machine.stack)
  | debug {range : Range} {e : Expr} {machine : Machine σ} {value : Value} {host : σ} {span : Span}
      (hstarts : setting.isCancelled (machine.polled setting).host = false)
      (heval : e.eval setting machine.scopes machine.stack (machine.polled setting).host =
        .ok value host)
      (hgoes : setting.isCancelled (setting.meanwhile host) = false) :
      Says setting (.debug range e) machine range span (.debug (messageOf value) ⟨span⟩)
  | division {s : Statement} {e : Expr} {machine : Machine σ} {range : Range} {l r : Value}
      {span : Span} (hstarts : setting.isCancelled (machine.polled setting).host = false)
      (hoperand : s.operand? machine = some e)
      (hdivides : e.Divides setting machine.scopes machine.stack (machine.polled setting).host
        range l r) :
      Says setting s machine range span
        (Setting.warning (divisionMessage l r) span true machine.stack)

/-- A run of statements comes to one that says a diagnostic, at the span of its range. -/
def Hears (setting : Setting σ) (depth : Nat) (statements : List Statement) (machine : Machine σ)
    (diagnostic : Diagnostic) : Prop :=
  ∃ s machine' range span, Comes setting depth statements machine s machine' ∧
    setting.span range = .ok span ∧ s.Says setting machine' range span diagnostic

variable {setting : Setting σ} {depth : Nat} {machine : Machine σ} {diagnostic : Diagnostic}

/-- What is heard on the way to some statements is heard on the way through them. -/
theorem Hears.lift {depth' : Nat} {statements statements' : List Statement} {machine' : Machine σ}
    (h : Hears setting depth statements machine diagnostic)
    (hlift : ∀ t last, Comes setting depth statements machine t last →
      Comes setting depth' statements' machine' t last) :
    Hears setting depth' statements' machine' diagnostic := by
  obtain ⟨t, last, range, span, hcomes, hspeaks⟩ := h
  exact ⟨t, last, range, span, hlift t last hcomes, hspeaks⟩

theorem Hears.head {s : Statement} {statements : List Statement}
    (h : Hears setting depth [s] machine diagnostic) :
    Hears setting depth (s :: statements) machine diagnostic := by
  apply h.lift
  intro t last hcomes
  cases hcomes with
  | here => exact .here
  | later _ h => cases h
  | inRule hgoes h => exact .inRule hgoes h
  | inMixin hgoes hspan hbody h => exact .inMixin hgoes hspan hbody h

end Statement

end Stylesheet
