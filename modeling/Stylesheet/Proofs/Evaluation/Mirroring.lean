import Stylesheet.Proofs.Evaluation.Agreement
import Stylesheet.Proofs.Evaluation.PassedStack
import Stylesheet.Proofs.Evaluation.Reach

/-!
# Evaluations in step

Two evaluations go in step if their spans differ only in what is never shown and their hosts treat
each diagnostic alike. The second of them is handed its call stack as an argument, so that the
stack that the first one pushes and pops is compared with it at the same time
(`runAll_mirrors`, `evaluate_mirrors`).
-/

namespace Stylesheet

variable {σ τ : Type} {α β S T : Type} {f : Span → Span}

/-! ## Settings and machines in step -/

/-- The second setting has the spans of the first one, changed in what is never shown, and its host
goes along with the host of the first one. -/
structure Setting.Mirrors (f : Span → Span) (hosts : σ → τ → Prop) (setting : Setting σ)
    (setting' : Setting τ) : Prop where
  toString_eq (span : Span) : toString (f span) = toString span
  span_eq (range : Range) : setting'.span range = (setting.span range).map f
  isCancelled_eq {host : σ} {host' : τ} (h : hosts host host') :
    setting'.isCancelled host' = setting.isCancelled host
  meanwhile {host : σ} {host' : τ} (h : hosts host host') :
    hosts (setting.meanwhile host) (setting'.meanwhile host')
  deliver {host : σ} {host' : τ} (diagnostic : Diagnostic) (h : hosts host host') :
    Agree f hosts (setting.deliver diagnostic host)
      (setting'.deliver (diagnostic.mapSpan f) host')

/-- The second machine is where the first one is, under a call stack that it is handed. Tables are
the same if they give the same answers. -/
structure Machine.Mirrors (f : Span → Span) (hosts : σ → τ → Prop) (stack : CallStack)
    (machine : Machine σ) (machine' : Machine τ) : Prop where
  host : hosts machine.host machine'.host
  globals (name : String) :
    machine'.scopes.globals.get? name = machine.scopes.globals.get? name
  locals : machine'.scopes.locals = machine.scopes.locals
  mixins (name : String) : machine'.mixins.get? name = machine.mixins.get? name
  rules : machine'.rules = machine.rules
  selectors : machine'.selectors = machine.selectors
  currentRule : machine'.currentRule = machine.currentRule
  stack_eq : machine.stack.mapSpan f = stack

variable {hosts : σ → τ → Prop} {setting : Setting σ} {setting' : Setting τ} {stack : CallStack}

/-- A range without a span is an error of location, which has no place itself. -/
theorem Setting.exists_fault_of_span_eq_error {range : Range} {error : CompileError}
    (h : setting.span range = .error error) : ∃ fault, error = .location fault := by
  rw [Setting.span] at h
  cases hspan : (do
    let start ← setting.index.unitOffset range.start
    let stop ← setting.index.unitOffset range.stop
    setting.index.span setting.url start stop setting.includeContext) with
  | ok span =>
    rw [hspan] at h
    contradiction
  | error fault =>
    rw [hspan] at h
    exact ⟨fault, (Except.error.inj h).symm⟩

/-- The span of a range fails for both settings alike. -/
theorem Setting.mapSpan_of_span_eq_error {range : Range} {error : CompileError}
    (h : setting.span range = .error error) : error.mapSpan f = error := by
  obtain ⟨fault, rfl⟩ := exists_fault_of_span_eq_error h
  rfl

namespace Setting.Mirrors

theorem span_bind (h : setting.Mirrors f hosts setting') (range : Range) {rel : S → T → Prop}
    {s : S} {t : T} {next : Span → EStateM CompileError S β}
    {next' : Span → EStateM CompileError T β} (hrel : rel s t)
    (hnext : ∀ span, Agree f rel (next span s) (next' (f span) t)) :
    Agree f rel ((MonadExcept.ofExcept (setting.span range) >>= next) s)
      ((MonadExcept.ofExcept (setting'.span range) >>= next') t) := by
  have hspan' := h.span_eq range
  cases hspan : setting.span range with
  | ok span =>
    rw [hspan] at hspan'
    rw [hspan']
    exact hnext span
  | error error =>
    rw [hspan] at hspan'
    rw [hspan']
    exact ⟨mapSpan_of_span_eq_error hspan, hrel⟩

theorem checkCancelled (h : setting.Mirrors f hosts setting') {host : σ} {host' : τ}
    (hhost : hosts host host') :
    Agree f hosts (setting.checkCancelled host) (setting'.checkCancelled host') := by
  rw [checkCancelled_apply, checkCancelled_apply, h.isCancelled_eq (h.meanwhile hhost)]
  split
  · exact ⟨rfl, h.meanwhile hhost⟩
  · exact ⟨rfl, h.meanwhile hhost⟩

/-- A diagnostic that is handed over unless the host has cancelled. -/
theorem report (h : setting.Mirrors f hosts setting') {host : σ} {host' : τ}
    (hhost : hosts host host') (diagnostic : Diagnostic) :
    Agree f hosts ((setting.checkCancelled >>= fun _ => setting.deliver diagnostic) host)
      ((setting'.checkCancelled >>= fun _ => setting'.deliver (diagnostic.mapSpan f)) host') :=
  (h.checkCancelled hhost).bind fun _ _ _ hhost => h.deliver diagnostic hhost

end Setting.Mirrors

/-- A setting is in step with itself. -/
theorem Setting.mirrors_self (setting : Setting σ) : setting.Mirrors id Eq setting where
  toString_eq _ := rfl
  span_eq range := by cases setting.span range <;> rfl
  isCancelled_eq h := by rw [h]
  meanwhile h := by rw [h]
  deliver {host host'} diagnostic h := by
    rw [← h, Diagnostic.mapSpan_id]
    cases setting.deliver diagnostic host with
    | ok a last => exact ⟨rfl, rfl⟩
    | error error last => exact ⟨error.mapSpan_id, rfl⟩

/-! ## Expressions -/

section expressions

variable {scopes scopes' : Scopes}

theorem announceDivision_mirrors (h : setting.Mirrors f hosts setting') (range : Range)
    (left right : Value) {host : σ} {host' : τ} (hhost : hosts host host') :
    Agree f hosts (announceDivision setting stack range left right host)
      (announceDivision setting' (stack.mapSpan f) range left right host') := by
  rw [announceDivision, announceDivision]
  by_cases hnumbers : (left.isNumber && right.isNumber) = true
  · rw [if_pos hnumbers, if_pos hnumbers]
    refine (h.checkCancelled hhost).bind fun _ host host' hhost => ?_
    refine h.span_bind range hhost fun span => ?_
    rw [← Setting.warning_mapSpan h.toString_eq]
    exact h.deliver _ hhost
  · rw [if_neg hnumbers, if_neg hnumbers]
    exact ⟨rfl, hhost⟩

theorem orFaultAt_mirrors (h : setting.Mirrors f hosts setting') (range : Range)
    (result : Except OperationFault Value) {host : σ} {host' : τ} (hhost : hosts host host') :
    Agree f hosts (orFaultAt setting range result host)
      (orFaultAt setting' range result host') := by
  cases result with
  | ok value => exact ⟨rfl, hhost⟩
  | error fault => exact h.span_bind range hhost fun span => ⟨rfl, hhost⟩

mutual

theorem Expr.eval_mirrors (h : setting.Mirrors f hosts setting')
    (hscopes : ∀ name, scopes'.get? name = scopes.get? name) {host : σ} {host' : τ}
    (hhost : hosts host host') :
    (e : Expr) → Agree f hosts (e.eval setting scopes stack host)
      (e.eval setting' scopes' (stack.mapSpan f) host')
  | .number _ _ _ => ⟨rfl, hhost⟩
  | .text _ _ _ => ⟨rfl, hhost⟩
  | .var range name => by
    rw [Expr.eval, Expr.eval, hscopes]
    cases scopes.get? name with
    | some value => exact ⟨rfl, hhost⟩
    | none => exact h.span_bind range hhost fun span => ⟨rfl, hhost⟩
  | .negate range operand => by
    rw [Expr.eval, Expr.eval]
    refine (operand.eval_mirrors h hscopes hhost).bind fun value _ _ hhost => ?_
    exact orFaultAt_mirrors h range value.negate hhost
  | .list _ items => by
    rw [Expr.eval, Expr.eval]
    refine (Expr.evalAll_mirrors h hscopes hhost items).bind fun values _ _ hhost => ?_
    exact ⟨rfl, hhost⟩
  | .binary range operator left right => by
    rw [Expr.eval, Expr.eval]
    refine (left.eval_mirrors h hscopes hhost).bind fun l _ _ hhost => ?_
    refine (right.eval_mirrors h hscopes hhost).bind fun r _ _ hhost => ?_
    by_cases hdivide : operator = .divide
    · rw [if_pos hdivide, if_pos hdivide]
      refine (announceDivision_mirrors h range l r hhost).bind fun _ _ _ hhost => ?_
      exact orFaultAt_mirrors h range (Value.combine operator l r) hhost
    · rw [if_neg hdivide, if_neg hdivide]
      exact orFaultAt_mirrors h range (Value.combine operator l r) hhost

theorem Expr.evalAll_mirrors (h : setting.Mirrors f hosts setting')
    (hscopes : ∀ name, scopes'.get? name = scopes.get? name) {host : σ} {host' : τ}
    (hhost : hosts host host') :
    (items : List Expr) → Agree f hosts (Expr.evalAll setting scopes stack items host)
      (Expr.evalAll setting' scopes' (stack.mapSpan f) items host')
  | [] => ⟨rfl, hhost⟩
  | item :: items => by
    rw [Expr.evalAll, Expr.evalAll]
    refine (item.eval_mirrors h hscopes hhost).bind fun value _ _ hhost => ?_
    refine (Expr.evalAll_mirrors h hscopes hhost items).bind fun values _ _ hhost => ?_
    exact ⟨rfl, hhost⟩

end

end expressions

/-! ## Statements -/

/-- Assignments to tables that give the same answers leave such tables. -/
theorem Scopes.assign_congr {scopes scopes' : Scopes} (hlocals : scopes'.locals = scopes.locals)
    (hglobals : ∀ name, scopes'.globals.get? name = scopes.globals.get? name) (name : String)
    (value : Value) :
    (scopes'.assign name value).locals = (scopes.assign name value).locals ∧
      ∀ other, (scopes'.assign name value).globals.get? other =
        (scopes.assign name value).globals.get? other := by
  rw [assign, assign, hlocals]
  split
  · exact ⟨rfl, hglobals⟩
  · exact ⟨rfl, hglobals⟩
  · refine ⟨rfl, fun other => ?_⟩
    simp only [Bindings.get?_insert, hglobals]

namespace Machine.Mirrors

variable {machine : Machine σ} {machine' : Machine τ}

theorem scopes_get? (h : machine.Mirrors f hosts stack machine') (name : String) :
    machine'.scopes.get? name = machine.scopes.get? name := by
  rw [Scopes.get?, Scopes.get?, h.locals, h.globals]

theorem onHost (h : machine.Mirrors f hosts stack machine') {act : HostM CompileError σ α}
    {act' : HostM CompileError τ α} (hact : Agree f hosts (act machine.host) (act' machine'.host)) :
    Agree f (Machine.Mirrors f hosts stack) (Machine.onHost act machine)
      (Machine.onHost act' machine') := by
  rw [Machine.onHost, Machine.onHost]
  cases hrun : act machine.host <;> cases hrun' : act' machine'.host <;> rw [hrun, hrun'] at hact
  · exact ⟨hact.1, { h with host := hact.2 }⟩
  · contradiction
  · contradiction
  · exact ⟨hact.1, { h with host := hact.2 }⟩

theorem checkCancelled (h : machine.Mirrors f hosts stack machine')
    (hsetting : setting.Mirrors f hosts setting') :
    Agree f (Machine.Mirrors f hosts stack) (Machine.onHost setting.checkCancelled machine)
      (Machine.onHost setting'.checkCancelled machine') :=
  h.onHost (hsetting.checkCancelled h.host)

theorem value (h : machine.Mirrors f hosts stack machine')
    (hsetting : setting.Mirrors f hosts setting') (e : Expr) :
    Agree f (Machine.Mirrors f hosts stack) (setting.value e machine)
      (setting'.valueUnder stack e machine') := by
  have heval : Agree f hosts (e.eval setting machine.scopes machine.stack machine.host)
      (e.eval setting' machine'.scopes stack machine'.host) := by
    rw [← h.stack_eq]
    exact e.eval_mirrors hsetting h.scopes_get? h.host
  exact h.onHost heval

theorem report (h : machine.Mirrors f hosts stack machine')
    (hsetting : setting.Mirrors f hosts setting') (diagnostic : Diagnostic) :
    Agree f (Machine.Mirrors f hosts stack) (setting.reportUnlessCancelled diagnostic machine)
      (setting'.reportUnlessCancelled (diagnostic.mapSpan f) machine') :=
  h.onHost (hsetting.report h.host diagnostic)

theorem assign (h : machine.Mirrors f hosts stack machine') (name : String) (value : Value) :
    Machine.Mirrors f hosts stack { machine with scopes := machine.scopes.assign name value }
      { machine' with scopes := machine'.scopes.assign name value } :=
  have hassign := Scopes.assign_congr h.locals h.globals name value
  { h with locals := hassign.1, globals := hassign.2 }

theorem define (h : machine.Mirrors f hosts stack machine') (name : String)
    (body : List Statement) :
    Machine.Mirrors f hosts stack { machine with mixins := machine.mixins.insert name body }
      { machine' with mixins := machine'.mixins.insert name body } := by
  refine { h with mixins := fun other => ?_ }
  simp only [Bindings.get?_insert, h.mixins]

theorem declare (h : machine.Mirrors f hosts stack machine') (rule : Nat) (property : String)
    (value : Value) :
    Machine.Mirrors f hosts stack (machine.declare rule property value)
      (machine'.declare rule property value) :=
  { h with rules := by rw [Machine.declare, Machine.declare, h.rules] }

theorem enterRule (h : machine.Mirrors f hosts stack machine') (selector : String) :
    Machine.Mirrors f hosts stack (machine.enterRule selector) (machine'.enterRule selector) where
  host := h.host
  globals := h.globals
  locals := congrArg (List.cons ({} : Bindings Value)) h.locals
  mixins := h.mixins
  rules := by rw [Machine.enterRule, Machine.enterRule, h.rules]
  selectors := congrArg (selector :: ·) h.selectors
  currentRule := by rw [Machine.enterRule, Machine.enterRule, h.rules]
  stack_eq := h.stack_eq

theorem leaveRule (h : machine.Mirrors f hosts stack machine') (outer : Option Nat) :
    Machine.Mirrors f hosts stack (machine.leaveRule outer) (machine'.leaveRule outer) where
  host := h.host
  globals := h.globals
  locals := congrArg List.tail h.locals
  mixins := h.mixins
  rules := h.rules
  selectors := congrArg List.tail h.selectors
  currentRule := rfl
  stack_eq := h.stack_eq

theorem enterMixin (h : machine.Mirrors f hosts stack machine') (name : String)
    (callSite : Span) :
    Machine.Mirrors f hosts (stack.push s!"{name}()" (f callSite))
      (machine.enterMixin name callSite)
      { machine' with scopes := machine'.scopes.isolate } where
  host := h.host
  globals := h.globals
  locals := rfl
  mixins := h.mixins
  rules := h.rules
  selectors := h.selectors
  currentRule := h.currentRule
  stack_eq := by rw [Machine.enterMixin, CallStack.mapSpan_push, h.stack_eq]

theorem leaveMixin {member : String} {callSite : Span}
    (h : machine.Mirrors f hosts (stack.push member callSite) machine')
    (caller : List (Bindings Value)) :
    Machine.Mirrors f hosts stack (machine.leaveMixin caller)
      { machine' with scopes := { machine'.scopes with locals := caller } } where
  host := h.host
  globals := h.globals
  locals := rfl
  mixins := h.mixins
  rules := h.rules
  selectors := h.selectors
  currentRule := h.currentRule
  stack_eq := by rw [Machine.leaveMixin, CallStack.mapSpan_pop, h.stack_eq, CallStack.pop_push]

end Machine.Mirrors

/-- A body between an entry and an exit. The exits are made in failure too. -/
theorem Agree.bracket {κ κ' : Type} {rel rel' : Machine σ → Machine τ → Prop}
    {keep : Machine σ → κ} {enter : Machine σ → Machine σ} {leave : κ → Machine σ → Machine σ}
    {keep' : Machine τ → κ'} {enter' : Machine τ → Machine τ} {leave' : κ' → Machine τ → Machine τ}
    {body : Run σ α} {body' : Run τ α} {machine : Machine σ} {machine' : Machine τ}
    (hbody : Agree f rel' (body (enter machine)) (body' (enter' machine')))
    (hleave : ∀ last last', rel' last last' →
      rel (leave (keep machine) last) (leave' (keep' machine') last')) :
    Agree f rel (Machine.bracket keep enter leave body machine)
      (Machine.bracket keep' enter' leave' body' machine') := by
  rw [Machine.bracket, Machine.bracket]
  cases hrun : body (enter machine) <;> cases hrun' : body' (enter' machine') <;>
    rw [hrun, hrun'] at hbody
  · exact ⟨hbody.1, hleave _ _ hbody.2⟩
  · contradiction
  · contradiction
  · exact ⟨hbody.1, hleave _ _ hbody.2⟩

/-- Bodies of mixins go in step, wherever they are included. -/
def BodiesMirror (f : Span → Span) (hosts : σ → τ → Prop) (runMixin : List Statement → Run σ Unit)
    (runMixin' : CallStack → List Statement → Run τ Unit) : Prop :=
  ∀ stack body machine machine', Machine.Mirrors f hosts stack machine machine' →
    Agree f (Machine.Mirrors f hosts stack) (runMixin body machine) (runMixin' stack body machine')

section

variable {runMixin : List Statement → Run σ Unit}
  {runMixin' : CallStack → List Statement → Run τ Unit}

mutual

theorem Statement.run_mirrors (h : setting.Mirrors f hosts setting')
    (hmixin : BodiesMirror f hosts runMixin runMixin') {machine : Machine σ} {machine' : Machine τ}
    (hm : machine.Mirrors f hosts stack machine') :
    (s : Statement) → Agree f (Machine.Mirrors f hosts stack) (s.run setting runMixin machine)
      (s.runUnder setting' runMixin' stack machine')
  | .assign _ name e => by
    rw [Statement.run, Statement.runUnder]
    refine (hm.checkCancelled h).bind fun _ _ _ hm => ?_
    refine (hm.value h e).bind fun value _ _ hm => ?_
    exact ⟨rfl, hm.assign name value⟩
  | .warn range e => by
    rw [Statement.run, Statement.runUnder]
    refine (hm.checkCancelled h).bind fun _ _ _ hm => ?_
    refine (hm.value h e).bind fun value machine _ hm => ?_
    refine h.span_bind range hm fun span => ?_
    have hreport := hm.report h (Setting.warning (messageOf value) span false machine.stack)
    rw [Setting.warning_mapSpan h.toString_eq, hm.stack_eq] at hreport
    exact hreport
  | .debug range e => by
    rw [Statement.run, Statement.runUnder]
    refine (hm.checkCancelled h).bind fun _ _ _ hm => ?_
    refine (hm.value h e).bind fun value _ _ hm => ?_
    refine h.span_bind range hm fun span => ?_
    exact hm.report h (.debug (messageOf value) ⟨span⟩)
  | .defineMixin _ name body => by
    rw [Statement.run, Statement.runUnder]
    refine (hm.checkCancelled h).bind fun _ _ _ hm => ?_
    exact ⟨rfl, hm.define name body⟩
  | .includeMixin range name => by
    rw [Statement.run, Statement.runUnder]
    refine (hm.checkCancelled h).bind fun _ machine machine' hm => ?_
    refine h.span_bind range hm fun span => ?_
    rw [get_bind, get_bind, hm.mixins]
    cases machine.mixins.get? name with
    | none => exact ⟨rfl, hm⟩
    | some body =>
      apply Agree.bracket (hmixin _ body _ _ (hm.enterMixin name span))
      intro last last' hlast
      rw [hm.locals]
      exact hlast.leaveMixin _
  | .rule _ selector body => by
    rw [Statement.run, Statement.runUnder]
    refine (hm.checkCancelled h).bind fun _ machine machine' hm => ?_
    rw [get_bind, get_bind, hm.selectors]
    apply Agree.bracket (Statement.runAll_mirrors h hmixin (hm.enterRule _) body)
    intro last last' hlast
    rw [hm.currentRule]
    exact hlast.leaveRule _
  | .declaration range property e => by
    rw [Statement.run, Statement.runUnder]
    refine (hm.checkCancelled h).bind fun _ machine machine' hm => ?_
    rw [get_bind, get_bind, hm.currentRule]
    cases machine.currentRule with
    | none => exact h.span_bind range hm fun span => ⟨rfl, hm⟩
    | some current =>
      refine (hm.value h e).bind fun value _ _ hm => ?_
      exact ⟨rfl, hm.declare current property value⟩

theorem Statement.runAll_mirrors (h : setting.Mirrors f hosts setting')
    (hmixin : BodiesMirror f hosts runMixin runMixin') {machine : Machine σ} {machine' : Machine τ}
    (hm : machine.Mirrors f hosts stack machine') :
    (statements : List Statement) → Agree f (Machine.Mirrors f hosts stack)
      (Statement.runAll setting runMixin statements machine)
      (Statement.runAllUnder setting' runMixin' stack statements machine')
  | [] => ⟨rfl, hm⟩
  | s :: statements => by
    rw [Statement.runAll, Statement.runAllUnder]
    refine (Statement.run_mirrors h hmixin hm s).bind fun _ _ _ hm => ?_
    exact Statement.runAll_mirrors h hmixin hm statements

end

end

/-- Bodies of mixins go in step, to whatever depth. -/
theorem runMixin_mirrors (h : setting.Mirrors f hosts setting') (depth : Nat) :
    BodiesMirror f hosts (setting.runMixin depth) (setting'.runMixinUnder depth) := by
  induction depth with
  | zero =>
    intro stack body machine machine' hm
    exact ⟨rfl, hm⟩
  | succ depth ih =>
    intro stack body machine machine' hm
    rw [Setting.runMixin, runBlock_eq, Setting.runMixinUnder]
    exact Statement.runAll_mirrors h ih hm body

/-- Machines that have just started are in step if their hosts are. -/
theorem Machine.mirrors_start {host : σ} {host' : τ} (h : hosts host host') :
    Machine.Mirrors f hosts {} { host := host } { host := host' } :=
  ⟨h, fun _ => rfl, rfl, fun _ => rfl, rfl, rfl, rfl, rfl⟩

/-- An evaluation goes in step with the one that passes its call stack down. -/
theorem evaluate_mirrors (h : setting.Mirrors f hosts setting') (statements : List Statement)
    {host : σ} {host' : τ} (hhost : hosts host host') :
    Agree f (Machine.Mirrors f hosts {}) (evaluate setting statements { host := host })
      (evaluateUnder setting' statements { host := host' }) := by
  rw [evaluate, evaluateUnder, runBlock_eq]
  have hmixin := runMixin_mirrors h (Statement.definitionsIn statements + recursionAllowance)
  refine (Statement.runAll_mirrors h hmixin (Machine.mirrors_start hhost) statements).bind
    fun _ _ _ hm => (hm.checkCancelled h).bind fun _ machine machine' hm => ?_
  have hrules : machine'.rules = machine.rules := hm.rules
  exact ⟨by rw [hrules], hm⟩

end Stylesheet
