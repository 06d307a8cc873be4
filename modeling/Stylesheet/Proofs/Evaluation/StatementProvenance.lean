import Stylesheet.Proofs.Evaluation.ExpressionProvenance

/-!
# Where a run of statements speaks and fails

Every diagnostic that a watched host is handed is said by a statement that the run has come to,
and every error with a place has that of a statement or an expression. There is a step lemma with
one case for each statement, and `runBlock_tells` goes on from it over the depth of mixins.
-/

namespace Stylesheet

variable {σ : Type} {α κ : Type} {setting : Setting (Transcript σ)}
  {machine : Machine (Transcript σ)} {good : Diagnostic → Prop} {bad : CompileError → Prop}
  {kept kept' : Machine (Transcript σ) → Prop} {ranges : List Range}

/-! ## Acts on machines -/

namespace Machine

/-- The same machine with another state of its host. -/
def Rehosted {σ : Type} (machine after : Machine σ) : Prop :=
  ∃ host, after = { machine with host := host }

theorem onHost_tells {act : HostM CompileError (Transcript σ) α}
    (h : Tells id good bad (fun _ => True) machine.host (act machine.host)) :
    Tells host good bad machine.Rehosted machine (onHost act machine) := by
  rw [onHost]
  cases hact : act machine.host with
  | ok a host =>
    rw [hact] at h
    exact ⟨h.1, host, rfl⟩
  | error error host =>
    rw [hact] at h
    exact h

theorem bracket_tells {keep : Machine (Transcript σ) → κ}
    {enter : Machine (Transcript σ) → Machine (Transcript σ)}
    {leave : κ → Machine (Transcript σ) → Machine (Transcript σ)} {body : Run (Transcript σ) α}
    (henter : (enter machine).host = machine.host)
    (hleave : ∀ kept after, (leave kept after).host = after.host)
    (hkept : ∀ after, kept after → kept' (leave (keep machine) after))
    (h : Tells host good bad kept (enter machine) (body (enter machine))) :
    Tells host good bad kept' machine (bracket keep enter leave body machine) := by
  rw [bracket]
  cases hbody : body (enter machine) with
  | ok a after =>
    rw [hbody] at h
    have htold : (host machine).Extends good (leave (keep machine) after).host := by
      rw [hleave, ← henter]
      exact h.1
    exact ⟨htold, hkept after h.2⟩
  | error error after =>
    rw [hbody] at h
    have htold : (host machine).Extends good (leave (keep machine) after).host := by
      rw [hleave, ← henter]
      exact h.1
    exact ⟨htold, h.2⟩

end Machine

/-- A run that starts with a poll. -/
theorem Tells.check_bind (hnotes : setting.Notes) {next : Unit → Run (Transcript σ) α}
    (hnext : setting.isCancelled (machine.polled setting).host = false →
      Tells Machine.host good (setting.Faults ranges) kept (machine.polled setting)
        (next () (machine.polled setting))) :
    Tells Machine.host good (setting.Faults ranges) kept machine
      ((Machine.onHost setting.checkCancelled >>= next) machine) := by
  have hpoll := hnotes.extends_meanwhile good machine.host
  cases hgoes : setting.isCancelled (machine.polled setting).host with
  | true =>
    rw [bind_of_error (Machine.check_of_true hgoes)]
    exact ⟨hpoll, .cancelled⟩
  | false =>
    rw [bind_of_ok (Machine.check_of_false hgoes)]
    exact (hnext hgoes).after hpoll

/-- A run that goes on from the value of an expression. -/
theorem Tells.value_bind (hnotes : setting.Notes) {e : Expr} {next : Value → Run (Transcript σ) α}
    (hranges : ∀ range ∈ e.nodes.map Expr.range, range ∈ ranges)
    (hgood : ∀ d, e.Announces setting machine.scopes machine.stack machine.host d → good d)
    (hnext : ∀ value host,
      e.eval setting machine.scopes machine.stack machine.host = .ok value host →
      Tells Machine.host good (setting.Faults ranges) kept { machine with host := host }
        (next value { machine with host := host })) :
    Tells Machine.host good (setting.Faults ranges) kept machine
      ((setting.value e >>= next) machine) := by
  have heval := (Expr.eval_tells hnotes machine.host e).mono hgood fun _ h => h.mono hranges
  apply Tells.bind (Machine.onHost_tells heval)
  intro value after hvalue hafter
  obtain ⟨host, rfl⟩ := hafter
  apply hnext
  rw [Machine.onHost] at hvalue
  cases hact : e.eval setting machine.scopes machine.stack machine.host with
  | ok value' host' =>
    rw [hact] at hvalue
    obtain ⟨rfl, hhost⟩ := EStateM.Result.ok.inj hvalue
    rw [show host' = host from congrArg Machine.host hhost]
  | error error host' =>
    rw [hact] at hvalue
    contradiction

theorem Setting.reportUnlessCancelled_tells (hnotes : setting.Notes) {diagnostic : Diagnostic}
    (hgood : setting.isCancelled (setting.meanwhile machine.host) = false → good diagnostic) :
    Tells Machine.host good (setting.Faults ranges) machine.Rehosted machine
      (setting.reportUnlessCancelled diagnostic machine) := by
  apply Machine.onHost_tells
  apply Tells.poll_bind hnotes
  intro hgoes
  apply (hnotes.deliver diagnostic _).mono
  · intro d hd
    rw [show d = diagnostic from hd]
    exact hgood hgoes
  · intro error h
    exact h.mono (by simp)

/-! ## The statements of a program -/

/-- Whether the bodies of all mixins that a machine knows stand in a program. -/
def Machine.Knows {σ : Type} (program : List Statement) (machine : Machine σ) : Prop :=
  ∀ name body, machine.mixins.get? name = some body →
    ∀ s ∈ Statement.nodesIn body, s ∈ Statement.nodesIn program

/-- A machine that has just started knows no mixins. -/
theorem Machine.knows_start (program : List Statement) (host : σ) :
    Machine.Knows program { host := host } := by
  intro name body hbody
  contradiction

namespace Statement

theorem range_mem_rangesIn {program : List Statement} {s : Statement} (hs : s ∈ nodesIn program) :
    s.range ∈ rangesIn program :=
  List.mem_flatMap.mpr ⟨s, hs, List.mem_cons_self⟩

theorem nodes_range_mem_rangesIn {program : List Statement} {s : Statement} {e : Expr}
    (hs : s ∈ nodesIn program) (he : s.value? = some e) :
    ∀ range ∈ e.nodes.map Expr.range, range ∈ rangesIn program := by
  intro range hrange
  refine List.mem_flatMap.mpr ⟨s, hs, List.mem_cons_of_mem _ ?_⟩
  simpa [exprs, he] using hrange

variable {program : List Statement} {depth : Nat}

theorem value?_of_operand? {machine : Machine σ} {s : Statement} {e : Expr}
    (h : s.operand? machine = some e) : s.value? = some e := by
  cases s with
  | assign | warn | debug => exact h
  | declaration =>
    rw [operand?] at h
    split at h
    · exact h
    · contradiction
  | defineMixin | includeMixin | rule => contradiction

/-- What a statement of a program says is about a range of the program. -/
theorem Says.mem_rangesIn {setting : Setting σ} {machine : Machine σ} {s : Statement}
    {range : Range} {span : Span} {diagnostic : Diagnostic}
    (h : s.Says setting machine range span diagnostic) (hs : s ∈ nodesIn program) :
    range ∈ rangesIn program := by
  cases h with
  | warn | debug => exact range_mem_rangesIn hs
  | division hstarts hoperand hdivides =>
    apply nodes_range_mem_rangesIn hs (value?_of_operand? hoperand)
    obtain ⟨left, right, hnode⟩ := hdivides.mem_nodes
    exact List.mem_map.mpr ⟨_, hnode, rfl⟩

theorem Says.hears {setting : Setting σ} {machine : Machine σ} {s : Statement}
    {statements : List Statement} {range : Range} {span : Span} {diagnostic : Diagnostic}
    (h : s.Says setting machine range span diagnostic) (hspan : setting.span range = .ok span) :
    Hears setting depth (s :: statements) machine diagnostic :=
  ⟨s, machine, range, span, .here, hspan, h⟩

/-- What the expression of a statement announces is said by the statement. -/
theorem hears_of_announces {setting : Setting σ} {machine : Machine σ} {s : Statement}
    {statements : List Statement} {e : Expr} {diagnostic : Diagnostic}
    (hstarts : setting.isCancelled (machine.polled setting).host = false)
    (hoperand : s.operand? machine = some e)
    (h : e.Announces setting machine.scopes machine.stack (machine.polled setting).host
      diagnostic) :
    Hears setting depth (s :: statements) machine diagnostic := by
  obtain ⟨range, l, r, span, hdivides, hspan, rfl⟩ := h
  exact (Says.division hstarts hoperand hdivides).hears hspan

/-- A statement that goes on from the value of its expression. -/
theorem operand_tells (hnotes : setting.Notes) {s : Statement} {e : Expr}
    {next : Value → Run (Transcript σ) α} (hs : s ∈ nodesIn program)
    (hstarts : setting.isCancelled (machine.polled setting).host = false)
    (hoperand : s.operand? machine = some e)
    (hnext : ∀ value host,
      e.eval setting machine.scopes machine.stack (machine.polled setting).host = .ok value host →
      Tells Machine.host (Hears setting depth [s] machine) (setting.Faults (rangesIn program)) kept
        { machine with host := host } (next value { machine with host := host })) :
    Tells Machine.host (Hears setting depth [s] machine) (setting.Faults (rangesIn program)) kept
      (machine.polled setting) ((setting.value e >>= next) (machine.polled setting)) := by
  apply Tells.value_bind hnotes
  · exact nodes_range_mem_rangesIn hs (value?_of_operand? hoperand)
  · intro d h
    exact hears_of_announces hstarts hoperand h
  · exact hnext

/-- A statement that speaks at the end of its run. -/
theorem message_tells (hnotes : setting.Notes) {s : Statement} {range : Range} {span : Span}
    {diagnostic : Diagnostic} {after : Machine (Transcript σ)}
    (hspan : setting.span range = .ok span) (hknows : after.Knows program)
    (hspeaks : setting.isCancelled (setting.meanwhile after.host) = false →
      s.Says setting machine range span diagnostic) :
    Tells Machine.host (Hears setting depth [s] machine) (setting.Faults (rangesIn program))
      (Machine.Knows program) after (setting.reportUnlessCancelled diagnostic after) := by
  have hgood : setting.isCancelled (setting.meanwhile after.host) = false →
      Hears setting depth [s] machine diagnostic := by
    intro hgoes
    exact (hspeaks hgoes).hears hspan
  apply (Setting.reportUnlessCancelled_tells hnotes hgood).keeping
  intro _ hsame
  obtain ⟨host, rfl⟩ := hsame
  exact hknows

/-! ## Steps and runs -/

/-- Whether the bodies of mixins, if any may run at a depth, tell the host what they say. -/
def BodiesTell (setting : Setting (Transcript σ)) (program : List Statement) (depth : Nat) : Prop :=
  ∀ k, depth = k + 1 → ∀ body machine, Machine.Knows program machine →
    (∀ s ∈ nodesIn body, s ∈ nodesIn program) →
    Tells Machine.host (Hears setting k body machine) (setting.Faults (rangesIn program))
      (Machine.Knows program) machine (runBlock setting k body machine)

mutual

/-- A statement says what its run tells the host, or something inside it does. -/
theorem run_tells (hnotes : setting.Notes) (hmixin : BodiesTell setting program depth)
    (machine : Machine (Transcript σ)) (hknows : machine.Knows program) :
    (s : Statement) → (∀ t ∈ nodesIn [s], t ∈ nodesIn program) →
      Tells Machine.host (Hears setting depth [s] machine) (setting.Faults (rangesIn program))
        (Machine.Knows program) machine (s.run setting (setting.runMixin depth) machine)
  | .assign range name e, hin => by
    rw [Statement.run]
    apply Tells.check_bind hnotes
    intro hstarts
    apply operand_tells hnotes (hin _ List.mem_cons_self) hstarts rfl
    intro value host _
    exact ⟨.refl _, hknows⟩
  | .warn range e, hin => by
    have hs := hin _ List.mem_cons_self
    rw [Statement.run]
    apply Tells.check_bind hnotes
    intro hstarts
    apply operand_tells hnotes hs hstarts rfl
    intro value host heval
    apply Tells.span_bind (range_mem_rangesIn hs)
    intro span hspan
    have hspeaks : setting.isCancelled (setting.meanwhile host) = false →
        Says setting (.warn range e) machine range span
          (Setting.warning (messageOf value) span false machine.stack) := Says.warn hstarts heval
    exact message_tells hnotes hspan hknows hspeaks
  | .debug range e, hin => by
    have hs := hin _ List.mem_cons_self
    rw [Statement.run]
    apply Tells.check_bind hnotes
    intro hstarts
    apply operand_tells hnotes hs hstarts rfl
    intro value host heval
    apply Tells.span_bind (range_mem_rangesIn hs)
    intro span hspan
    have hspeaks : setting.isCancelled (setting.meanwhile host) = false →
        Says setting (.debug range e) machine range span (.debug (messageOf value) ⟨span⟩) :=
      Says.debug hstarts heval
    exact message_tells hnotes hspan hknows hspeaks
  | .defineMixin range name body, hin => by
    rw [Statement.run]
    apply Tells.check_bind hnotes
    intro hstarts
    refine ⟨.refl _, ?_⟩
    intro other body' hbody'
    simp only [Bindings.get?_insert] at hbody'
    split at hbody'
    · obtain rfl := Option.some.inj hbody'
      exact forall_nodes_inner hin
    · exact hknows other body' hbody'
  | .includeMixin range name, hin => by
    have hrange : range ∈ rangesIn program := range_mem_rangesIn (hin _ List.mem_cons_self)
    rw [Statement.run]
    apply Tells.check_bind hnotes
    intro hstarts
    apply Tells.span_bind hrange
    intro span hspan
    rw [get_bind]
    cases hbody : (machine.polled setting).mixins.get? name with
    | none => exact Tells.throw (.within hrange hspan rfl (by simp))
    | some body =>
      apply Machine.bracket_tells
      · rfl
      · intro _ _
        rfl
      · intro after h
        exact h
      cases depth with
      | zero => exact Tells.throw .tooDeep
      | succ k =>
        have hin' := hknows name body hbody
        let inside := (machine.polled setting).enterMixin name span
        apply (hmixin k rfl body inside hknows hin').mono_good
        intro d h
        exact h.lift fun _ _ => .inMixin hstarts hspan hbody
  | .rule range selector body, hin => by
    rw [Statement.run]
    apply Tells.check_bind hnotes
    intro hstarts
    rw [get_bind]
    apply Machine.bracket_tells
    · rfl
    · intro _ _
      rfl
    · intro after h
      exact h
    apply (runAll_tells hnotes hmixin ((machine.polled setting).enterRule _) hknows body
      ?_).mono_good
    · intro d h
      exact h.lift fun _ _ => .inRule hstarts
    · exact forall_nodes_inner hin
  | .declaration range property e, hin => by
    have hs := hin _ List.mem_cons_self
    rw [Statement.run]
    apply Tells.check_bind hnotes
    intro hstarts
    rw [get_bind]
    cases hrule : (machine.polled setting).currentRule with
    | none =>
      apply Tells.span_bind (range_mem_rangesIn hs)
      intro span hspan
      exact Tells.throw (.within (range_mem_rangesIn hs) hspan rfl (by simp))
    | some current =>
      have hinside : machine.currentRule = some current := hrule
      apply operand_tells hnotes hs hstarts (by simp [operand?, hinside])
      intro value host _
      exact ⟨.refl _, hknows⟩

theorem runAll_tells (hnotes : setting.Notes) (hmixin : BodiesTell setting program depth)
    (machine : Machine (Transcript σ)) (hknows : machine.Knows program) :
    (statements : List Statement) → (∀ t ∈ nodesIn statements, t ∈ nodesIn program) →
      Tells Machine.host (Hears setting depth statements machine)
        (setting.Faults (rangesIn program)) (Machine.Knows program) machine
        (runAll setting (setting.runMixin depth) statements machine)
  | [], _ => by
    rw [runAll]
    exact Tells.pure () hknows
  | s :: statements, hin => by
    rw [runAll]
    have hfirst := run_tells hnotes hmixin machine hknows s (forall_nodes_first hin)
    apply Tells.bind (hfirst.mono_good fun _ h => h.head)
    intro _ after hrun hafter
    apply (runAll_tells hnotes hmixin after hafter statements (forall_nodes_rest hin)).mono_good
    intro d h
    exact h.lift fun _ _ => .later hrun

end

/-- A run of statements tells the host what the statements say that it comes to, whatever the depth
to which mixins may be nested. -/
theorem runBlock_tells (hnotes : setting.Notes) (depth : Nat) (statements : List Statement)
    (machine : Machine (Transcript σ)) (hknows : machine.Knows program)
    (hin : ∀ s ∈ nodesIn statements, s ∈ nodesIn program) :
    Tells Machine.host (Hears setting depth statements machine) (setting.Faults (rangesIn program))
      (Machine.Knows program) machine (runBlock setting depth statements machine) := by
  induction depth generalizing statements machine with
  | zero =>
    rw [runBlock_eq]
    exact runAll_tells hnotes (fun k hk => by contradiction) machine hknows statements hin
  | succ depth ih =>
    rw [runBlock_eq]
    apply runAll_tells hnotes ?_ machine hknows statements hin
    intro k hk body machine' hknows' hin'
    obtain rfl := Nat.succ.inj hk
    exact ih body machine' hknows' hin'

/-- A statement of a program that has run has left the machine with mixins of the program. -/
theorem knows_of_run (hnotes : setting.Notes) {s : Statement}
    {machine machine₁ : Machine (Transcript σ)}
    (hrun : s.run setting (setting.runMixin depth) machine = .ok () machine₁)
    (hknows : machine.Knows program) (hin : ∀ t ∈ nodesIn [s], t ∈ nodesIn program) :
    machine₁.Knows program := by
  have htells : Tells Machine.host (Hears setting depth [s] machine)
      (setting.Faults (rangesIn program)) (Machine.Knows program) machine
      (s.run setting (setting.runMixin depth) machine) := by
    apply run_tells hnotes _ machine hknows s hin
    intro k _ body machine' hknows' hin'
    exact runBlock_tells hnotes k body machine' hknows' hin'
  rw [hrun] at htells
  exact htells.2

/-- A run comes to statements of its program only. -/
theorem Comes.mem_nodesIn (hnotes : setting.Notes) {statements : List Statement} {t : Statement}
    {machine machine' : Machine (Transcript σ)}
    (h : Comes setting depth statements machine t machine') (hknows : machine.Knows program)
    (hin : ∀ s ∈ nodesIn statements, s ∈ nodesIn program) : t ∈ nodesIn program := by
  induction h with
  | here => exact hin _ List.mem_cons_self
  | later hrun h ih =>
    exact ih (knows_of_run hnotes hrun hknows (forall_nodes_first hin)) (forall_nodes_rest hin)
  | inRule hgoes h ih => exact ih hknows (forall_nodes_inner hin)
  | inMixin hgoes hspan hbody h ih => exact ih hknows (hknows _ _ hbody)

end Statement

/-! ## Whole evaluations -/

/-- The depth to which mixins may be nested in the evaluation of statements. -/
def Statement.depthLimit (statements : List Statement) : Nat :=
  Statement.definitionsIn statements + recursionAllowance

/-- An evaluation tells the host what the statements say that it comes to. -/
theorem evaluate_tells (hnotes : setting.Notes) (statements : List Statement) (t : Transcript σ) :
    Tells Machine.host
      (Statement.Hears setting (Statement.depthLimit statements) statements { host := t })
      (setting.Faults (Statement.rangesIn statements)) (fun _ => True) { host := t }
      (evaluate setting statements { host := t }) := by
  rw [evaluate]
  apply Tells.bind (Statement.runBlock_tells hnotes (Statement.depthLimit statements) statements
    { host := t } (Machine.knows_start statements t) fun _ hs => hs)
  intro _ after _ _
  apply Tells.check_bind hnotes
  intro _
  exact Tells.pure _ trivial

end Stylesheet
