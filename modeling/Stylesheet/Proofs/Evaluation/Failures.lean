import Stylesheet.Proofs.Evaluation.Inclusions

/-!
# Where a run fails

Each error of a run is raised by a statement that the run has come to, in its own words or in those
of its expression. The one error that no statement raises is that mixins are included too deeply,
and then as many inclusions are under way as may be (`runBlock_fails`).
-/

namespace Stylesheet

variable {σ α β : Type}

/-! ## Acts that fail -/

/-- The errors that a stylesheet has no part in: those of the host, and of a range without a
span. -/
inductive CompileError.IsForeign : CompileError → Prop where
  | cancelled : IsForeign .cancelled
  | report (error : ReportError) : IsForeign (.report error)
  | location (error : SourceError) : IsForeign (.location error)

section

variable {S : Type} {s last : S} {error : CompileError}

theorem bind_eq_error {ε : Type} {act : EStateM ε S α} {next : α → EStateM ε S β} {error : ε}
    (h : (act >>= next) s = .error error last) : act s = .error error last ∨
      ∃ a middle, act s = .ok a middle ∧ next a middle = .error error last := by
  cases hact : act s with
  | ok a middle =>
    rw [bind_of_ok hact] at h
    exact .inr ⟨a, middle, rfl, h⟩
  | error error' middle =>
    rw [bind_of_error hact] at h
    obtain ⟨rfl, rfl⟩ := EStateM.Result.error.inj h
    exact .inl rfl

theorem Setting.span_eq_error {setting : Setting σ} {range : Range}
    (h : setting.span range = .error error) : error.IsForeign := by
  rw [span, Except.mapError.eq_def] at h
  split at h
  · obtain rfl := Except.error.inj h
    exact .location _
  · contradiction

theorem span_bind_eq_error {setting : Setting σ} {range : Range}
    {next : Span → EStateM CompileError S β}
    (h : (MonadExcept.ofExcept (setting.span range) >>= next) s = .error error last) :
    error.IsForeign ∨ ∃ span, setting.span range = .ok span ∧ next span s = .error error last := by
  cases hspan : setting.span range with
  | ok span =>
    rw [hspan] at h
    exact .inr ⟨span, rfl, h⟩
  | error error' =>
    rw [hspan] at h
    obtain ⟨rfl, -⟩ := EStateM.Result.error.inj h
    exact .inl (Setting.span_eq_error hspan)

end

variable {setting : Setting σ} {scopes : Scopes} {stack : CallStack} {host last : σ}
  {error : CompileError}

theorem Setting.isForeign_of_check (h : setting.checkCancelled host = .error error last) :
    error.IsForeign := by
  rw [checkCancelled_apply] at h
  split at h
  · obtain ⟨rfl, -⟩ := EStateM.Result.error.inj h
    exact .cancelled
  · contradiction

theorem Setting.isForeign_of_deliver {diagnostic : Diagnostic}
    (h : setting.deliver diagnostic host = .error error last) : error.IsForeign := by
  rw [deliver, EStateM.adaptExcept] at h
  split at h
  · obtain ⟨rfl, -⟩ := EStateM.Result.error.inj h
    exact .report _
  · contradiction

/-! ## Expressions -/

/-- The errors that nodes of an expression can give, where variables have the values of some
scopes. -/
inductive Expr.Raises (setting : Setting σ) (scopes : Scopes) (nodes : List Expr) :
    CompileError → Prop where
  | foreign {error : CompileError} (h : error.IsForeign) : Raises setting scopes nodes error
  | undefinedVariable {range : Range} {name : String} {span : Span}
      (hnode : .var range name ∈ nodes) (hunbound : scopes.get? name = none)
      (hspan : setting.span range = .ok span) :
      Raises setting scopes nodes (.undefinedVariable name span)
  | operation {node : Expr} {fault : OperationFault} {span : Span} (hnode : node ∈ nodes)
      (hspan : setting.span node.range = .ok span) :
      Raises setting scopes nodes (.operation fault span)

theorem Expr.Raises.mono {nodes nodes' : List Expr} (h : Raises setting scopes nodes error)
    (hsub : nodes ⊆ nodes') : Raises setting scopes nodes' error := by
  cases h with
  | foreign h => exact .foreign h
  | undefinedVariable hnode hunbound hspan => exact .undefinedVariable (hsub hnode) hunbound hspan
  | operation hnode hspan => exact .operation (hsub hnode) hspan

theorem isForeign_of_announceDivision {range : Range} {l r : Value}
    (h : announceDivision setting stack range l r host = .error error last) :
    error.IsForeign := by
  rw [announceDivision] at h
  split at h
  · obtain h | ⟨_, _, -, h⟩ := bind_eq_error h
    · exact Setting.isForeign_of_check h
    · obtain h | ⟨_, -, h⟩ := span_bind_eq_error h
      · exact h
      · exact Setting.isForeign_of_deliver h
  · contradiction

theorem Expr.raises_of_orFaultAt {e : Expr} {result : Except OperationFault Value}
    (h : orFaultAt setting e.range result host = .error error last) :
    Raises setting scopes e.nodes error := by
  cases result with
  | ok value => contradiction
  | error fault =>
    obtain h | ⟨span, hspan, h⟩ := span_bind_eq_error h
    · exact .foreign h
    · obtain ⟨rfl, -⟩ := EStateM.Result.error.inj h
      exact .operation e.self_mem_nodes hspan

namespace Expr

mutual

/-- An expression fails at one of its nodes. -/
theorem raises_of_eval {host last : σ} : (e : Expr) →
    e.eval setting scopes stack host = .error error last → Raises setting scopes e.nodes error
  | .number .., h | .text .., h => by
    rw [eval] at h
    contradiction
  | .var range name, h => by
    rw [eval] at h
    cases hname : scopes.get? name with
    | some value =>
      rw [hname] at h
      contradiction
    | none =>
      rw [hname] at h
      obtain h | ⟨span, hspan, h⟩ := span_bind_eq_error h
      · exact .foreign h
      · obtain ⟨rfl, -⟩ := EStateM.Result.error.inj h
        exact .undefinedVariable List.mem_cons_self hname hspan
  | .negate range operand, h => by
    rw [eval] at h
    obtain h | ⟨_, _, -, h⟩ := bind_eq_error h
    · exact (raises_of_eval operand h).mono (List.subset_cons_self _ _)
    · exact raises_of_orFaultAt (e := .negate range operand) h
  | .list range items, h => by
    rw [eval] at h
    obtain h | ⟨_, _, -, h⟩ := bind_eq_error h
    · exact (raises_of_evalAll items h).mono (List.subset_cons_self _ _)
    · contradiction
  | .binary range operator left right, h => by
    rw [eval] at h
    obtain h | ⟨_, _, -, h⟩ := bind_eq_error h
    · exact (raises_of_eval left h).mono
        (List.subset_cons_of_subset _ (List.subset_append_left _ _))
    obtain h | ⟨_, _, -, h⟩ := bind_eq_error h
    · exact (raises_of_eval right h).mono
        (List.subset_cons_of_subset _ (List.subset_append_right _ _))
    dsimp only at h
    split at h
    · obtain h | ⟨_, _, -, h⟩ := bind_eq_error h
      · exact .foreign (isForeign_of_announceDivision h)
      · exact raises_of_orFaultAt (e := .binary range operator left right) h
    · exact raises_of_orFaultAt (e := .binary range operator left right) h

theorem raises_of_evalAll {host last : σ} : (items : List Expr) →
    evalAll setting scopes stack items host = .error error last →
      Raises setting scopes (nodesIn items) error
  | [], h => by
    rw [evalAll] at h
    contradiction
  | item :: items, h => by
    rw [evalAll] at h
    obtain h | ⟨_, _, -, h⟩ := bind_eq_error h
    · refine (raises_of_eval item h).mono ?_
      rw [nodesIn, ← List.cons_append]
      exact List.subset_append_left _ _
    obtain h | ⟨_, _, -, h⟩ := bind_eq_error h
    · refine (raises_of_evalAll items h).mono ?_
      rw [nodesIn, ← List.cons_append]
      exact List.subset_append_right _ _
    · contradiction

end

end Expr

/-! ## Statements -/

namespace Statement

/-- The errors that a statement can give if a run comes to it with a machine, apart from those
inside its body or that of a mixin. -/
inductive Raises (setting : Setting σ) (machine : Machine σ) : Statement → CompileError → Prop where
  | foreign {s : Statement} {error : CompileError} (h : error.IsForeign) :
      Raises setting machine s error
  | operand {s : Statement} {e : Expr} {error : CompileError}
      (hoperand : s.operand? machine = some e)
      (h : Expr.Raises setting machine.scopes e.nodes error) : Raises setting machine s error
  | undefinedMixin {range : Range} {name : String} {span : Span}
      (hnone : machine.mixins.get? name = none) (hspan : setting.span range = .ok span) :
      Raises setting machine (.includeMixin range name) (.undefinedMixin name span)
  | outsideRule {range : Range} {property : String} {e : Expr} {span : Span}
      (houtside : machine.currentRule = none) (hspan : setting.span range = .ok span) :
      Raises setting machine (.declaration range property e)
        (.operation .declarationOutsideRule span)

/-- A statement makes an inclusion of a body, if a run comes to it with a machine. -/
inductive Includes (setting : Setting σ) (machine : Machine σ) :
    Statement → Inclusion → List Statement → Prop where
  | intro {range : Range} {name : String} {callSite : Span} {body : List Statement}
      (hgoes : setting.isCancelled (machine.polled setting).host = false)
      (hspan : setting.span range = .ok callSite) (hbody : machine.mixins.get? name = some body) :
      Includes setting machine (.includeMixin range name) ⟨name, callSite⟩ body

/-- A statement fails by itself, in the mixin that it includes, or in its own body. -/
inductive Fails (setting : Setting σ) (runMixin : List Statement → Run σ Unit)
    (machine : Machine σ) : Statement → CompileError → Prop where
  | raised {s : Statement} {error : CompileError} (h : s.Raises setting machine error) :
      Fails setting runMixin machine s error
  | inMixin {s : Statement} {inclusion : Inclusion} {body : List Statement} {error : CompileError}
      {last : Machine σ} (hincludes : s.Includes setting machine inclusion body)
      (h : runMixin body ((machine.polled setting).enterMixin inclusion.mixin inclusion.span) =
        .error error last) :
      Fails setting runMixin machine s error
  | inRule {range : Range} {selector : String} {body : List Statement} {error : CompileError}
      {last : Machine σ} (hgoes : setting.isCancelled (machine.polled setting).host = false)
      (h : runAll setting runMixin body
        ((machine.polled setting).enterRule (resolveSelector machine.selectors.head? selector)) =
          .error error last) :
      Fails setting runMixin machine (.rule range selector body) error

theorem raises_of_value {s : Statement} {e : Expr} {machine last : Machine σ}
    (hoperand : s.operand? machine = some e)
    (h : setting.value e (machine.polled setting) = .error error last) :
    s.Raises setting machine error := by
  have hvalue : setting.value e (machine.polled setting) =
      Machine.onHost (e.eval setting machine.scopes machine.stack) (machine.polled setting) := rfl
  rw [hvalue, Machine.onHost] at h
  split at h
  · contradiction
  · rename_i heval
    obtain ⟨rfl, -⟩ := EStateM.Result.error.inj h
    exact .operand hoperand (e.raises_of_eval heval)

theorem isForeign_of_report {diagnostic : Diagnostic} {machine last : Machine σ}
    (h : setting.reportUnlessCancelled diagnostic machine = .error error last) :
    error.IsForeign := by
  rw [Setting.reportUnlessCancelled, Machine.onHost] at h
  split at h
  · contradiction
  · rename_i hact
    obtain ⟨rfl, -⟩ := EStateM.Result.error.inj h
    obtain h | ⟨_, _, -, h⟩ := bind_eq_error hact
    · exact Setting.isForeign_of_check h
    · exact Setting.isForeign_of_deliver h

/-- A run that starts with a poll. -/
theorem check_bind_eq_error {next : Unit → Run σ β} {machine last : Machine σ}
    (h : (Machine.onHost setting.checkCancelled >>= next) machine = .error error last) :
    error.IsForeign ∨
      setting.isCancelled (machine.polled setting).host = false ∧
        next () (machine.polled setting) = .error error last := by
  cases hgoes : setting.isCancelled (machine.polled setting).host with
  | true =>
    rw [bind_of_error (Machine.check_of_true hgoes)] at h
    obtain ⟨rfl, -⟩ := EStateM.Result.error.inj h
    exact .inl .cancelled
  | false =>
    rw [bind_of_ok (Machine.check_of_false hgoes)] at h
    exact .inr ⟨rfl, h⟩

theorem bracket_eq_error {κ : Type} {keep : Machine σ → κ} {enter : Machine σ → Machine σ}
    {leave : κ → Machine σ → Machine σ} {body : Run σ α} {machine last : Machine σ}
    (h : Machine.bracket keep enter leave body machine = .error error last) :
    ∃ inner, body (enter machine) = .error error inner := by
  rw [Machine.bracket] at h
  split at h
  · contradiction
  · rename_i inner hbody
    obtain ⟨rfl, -⟩ := EStateM.Result.error.inj h
    exact ⟨inner, hbody⟩

/-- A statement that fails fails in one of the ways of its kind. -/
theorem fails_of_run {runMixin : List Statement → Run σ Unit} {machine last : Machine σ}
    (s : Statement) (h : s.run setting runMixin machine = .error error last) :
    s.Fails setting runMixin machine error := by
  cases s with
  | assign range name e =>
    rw [run] at h
    obtain h | ⟨-, h⟩ := check_bind_eq_error h
    · exact .raised (.foreign h)
    obtain h | ⟨_, _, -, h⟩ := bind_eq_error h
    · exact .raised (raises_of_value rfl h)
    · contradiction
  | warn range e | debug range e =>
    rw [run] at h
    obtain h | ⟨-, h⟩ := check_bind_eq_error h
    · exact .raised (.foreign h)
    obtain h | ⟨_, _, -, h⟩ := bind_eq_error h
    · exact .raised (raises_of_value rfl h)
    obtain h | ⟨_, -, h⟩ := span_bind_eq_error h
    · exact .raised (.foreign h)
    · exact .raised (.foreign (isForeign_of_report h))
  | defineMixin range name body =>
    rw [run] at h
    obtain h | ⟨-, h⟩ := check_bind_eq_error h
    · exact .raised (.foreign h)
    · contradiction
  | includeMixin range name =>
    rw [run] at h
    obtain h | ⟨hgoes, h⟩ := check_bind_eq_error h
    · exact .raised (.foreign h)
    obtain h | ⟨span, hspan, h⟩ := span_bind_eq_error h
    · exact .raised (.foreign h)
    rw [get_bind] at h
    cases hbody : (machine.polled setting).mixins.get? name with
    | none =>
      rw [hbody] at h
      obtain ⟨rfl, -⟩ := EStateM.Result.error.inj h
      exact .raised (.undefinedMixin hbody hspan)
    | some body =>
      rw [hbody] at h
      obtain ⟨_, h⟩ := bracket_eq_error h
      exact .inMixin (.intro hgoes hspan hbody) h
  | rule range selector body =>
    rw [run] at h
    obtain h | ⟨hgoes, h⟩ := check_bind_eq_error h
    · exact .raised (.foreign h)
    · rw [get_bind] at h
      obtain ⟨_, h⟩ := bracket_eq_error h
      exact .inRule hgoes h
  | declaration range property e =>
    rw [run] at h
    obtain h | ⟨-, h⟩ := check_bind_eq_error h
    · exact .raised (.foreign h)
    rw [get_bind] at h
    cases hrule : (machine.polled setting).currentRule with
    | none =>
      rw [hrule] at h
      obtain h | ⟨span, hspan, h⟩ := span_bind_eq_error h
      · exact .raised (.foreign h)
      · obtain ⟨rfl, -⟩ := EStateM.Result.error.inj h
        exact .raised (.outsideRule hrule hspan)
    | some rule =>
      rw [hrule] at h
      obtain h | ⟨_, _, -, h⟩ := bind_eq_error h
      · have hinside : machine.currentRule = some rule := hrule
        exact .raised (raises_of_value (by simp [operand?, hinside]) h)
      · contradiction

/-! ## Runs -/

/-- A run comes to a statement that raises an error, or to an inclusion that is one too many. -/
def FailsIn (setting : Setting σ) (depth : Nat) (statements : List Statement) (machine : Machine σ)
    (error : CompileError) : Prop :=
  ∃ chain t machine', ComesIn setting depth statements machine chain t machine' ∧
    (t.Raises setting machine' error ∨
      error = .tooDeep ∧ chain.length = depth ∧
        ∃ inclusion body, t.Includes setting machine' inclusion body)

theorem FailsIn.lift {depth : Nat} {statements statements' : List Statement}
    {machine machine' : Machine σ} (h : FailsIn setting depth statements machine error)
    (hlift : ∀ chain t last, ComesIn setting depth statements machine chain t last →
      ComesIn setting depth statements' machine' chain t last) :
    FailsIn setting depth statements' machine' error := by
  obtain ⟨chain, t, last, hcomes, herror⟩ := h
  exact ⟨chain, t, last, hlift chain t last hcomes, herror⟩

/-- What fails in the body of a mixin fails one inclusion further out. -/
theorem FailsIn.inMixin {depth : Nat} {s : Statement} {statements body : List Statement}
    {inclusion : Inclusion} {machine : Machine σ}
    (hincludes : s.Includes setting machine inclusion body)
    (h : FailsIn setting depth body
      ((machine.polled setting).enterMixin inclusion.mixin inclusion.span) error) :
    FailsIn setting (depth + 1) (s :: statements) machine error := by
  obtain ⟨hgoes, hspan, hbody⟩ := hincludes
  obtain ⟨chain, t, last, hcomes, hraises | ⟨rfl, hlength, hincludes⟩⟩ := h
  · exact ⟨_, t, last, .inMixin hgoes hspan hbody hcomes, .inl hraises⟩
  · exact ⟨_, t, last, .inMixin hgoes hspan hbody hcomes,
      .inr ⟨rfl, by rw [List.length_cons, hlength], hincludes⟩⟩

/-- Whether the bodies of mixins, if any may run at a depth, have come to where they fail. -/
def BodiesFail (setting : Setting σ) (depth : Nat) (error : CompileError) : Prop :=
  ∀ k, depth = k + 1 → ∀ body machine last,
    runBlock setting k body machine = .error error last → FailsIn setting k body machine error

mutual

theorem failsIn_of_run {depth : Nat} (hmixin : BodiesFail setting depth error)
    {machine last : Machine σ} {statements : List Statement} : (s : Statement) →
      s.run setting (setting.runMixin depth) machine = .error error last →
      FailsIn setting depth (s :: statements) machine error
  | .rule range selector body, h => by
    cases fails_of_run _ h with
    | raised hraises => exact ⟨[], _, machine, .here, .inl hraises⟩
    | inMixin hincludes => cases hincludes
    | inRule hgoes hbody =>
      exact (failsIn_of_runAll hmixin body hbody).lift fun _ _ _ => .inRule hgoes
  | .includeMixin range name, h => by
    cases fails_of_run _ h with
    | raised hraises => exact ⟨[], _, machine, .here, .inl hraises⟩
    | inMixin hincludes hbody =>
      cases depth with
      | zero =>
        obtain ⟨rfl, -⟩ := EStateM.Result.error.inj hbody
        exact ⟨[], _, machine, .here, .inr ⟨rfl, rfl, _, _, hincludes⟩⟩
      | succ k => exact .inMixin hincludes (hmixin k rfl _ _ _ hbody)
  | .assign .., h | .warn .., h | .debug .., h | .defineMixin .., h | .declaration .., h => by
    cases fails_of_run _ h with
    | raised hraises => exact ⟨[], _, machine, .here, .inl hraises⟩
    | inMixin hincludes => cases hincludes

theorem failsIn_of_runAll {depth : Nat} (hmixin : BodiesFail setting depth error)
    {machine last : Machine σ} : (statements : List Statement) →
      runAll setting (setting.runMixin depth) statements machine = .error error last →
      FailsIn setting depth statements machine error
  | [], h => by
    rw [runAll] at h
    contradiction
  | s :: statements, h => by
    rw [runAll] at h
    obtain h | ⟨_, middle, hrun, h⟩ := bind_eq_error h
    · exact failsIn_of_run hmixin s h
    · exact (failsIn_of_runAll hmixin statements h).lift fun _ _ _ => .later hrun

end

/-- A run that fails has come to where it does. -/
theorem runBlock_fails {depth : Nat} {statements : List Statement} {machine last : Machine σ}
    (h : runBlock setting depth statements machine = .error error last) :
    FailsIn setting depth statements machine error := by
  induction depth generalizing statements machine last with
  | zero =>
    rw [runBlock_eq] at h
    exact failsIn_of_runAll (fun k hk => by contradiction) statements h
  | succ depth ih =>
    rw [runBlock_eq] at h
    refine failsIn_of_runAll (fun k hk body machine last hbody => ?_) statements h
    obtain rfl := Nat.succ.inj hk
    exact ih hbody

end Statement

end Stylesheet
