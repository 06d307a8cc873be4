import Stylesheet.Proofs.Evaluation.Frame
import Stylesheet.Proofs.Evaluation.StatementProvenance
import Stylesheet.Proofs.Report.TraceText

/-!
# Chains of inclusions

A run comes to a statement inside a chain of inclusions, those that are under way at the moment.
The call stack of the machine is that of the chain: whatever happened before, no frame of it was
left behind and none is missing (`ComesIn.stack_eq`).
-/

namespace Stylesheet

variable {σ : Type}

namespace Statement

/-- A run of statements comes to a statement, with the inclusions under way at that moment, of which
the outermost comes first. -/
inductive ComesIn (setting : Setting σ) :
    Nat → List Statement → Machine σ → List Inclusion → Statement → Machine σ → Prop where
  | here {depth : Nat} {s : Statement} {statements : List Statement} {machine : Machine σ} :
      ComesIn setting depth (s :: statements) machine [] s machine
  | later {depth : Nat} {s t : Statement} {statements : List Statement} {chain : List Inclusion}
      {machine machine₁ machine' : Machine σ}
      (hrun : s.run setting (setting.runMixin depth) machine = .ok () machine₁)
      (h : ComesIn setting depth statements machine₁ chain t machine') :
      ComesIn setting depth (s :: statements) machine chain t machine'
  | inRule {depth : Nat} {range : Range} {selector : String} {body statements : List Statement}
      {chain : List Inclusion} {t : Statement} {machine machine' : Machine σ}
      (hgoes : setting.isCancelled (machine.polled setting).host = false)
      (h : ComesIn setting depth body
        ((machine.polled setting).enterRule (resolveSelector machine.selectors.head? selector))
        chain t machine') :
      ComesIn setting depth (.rule range selector body :: statements) machine chain t machine'
  | inMixin {depth : Nat} {range : Range} {name : String} {body statements : List Statement}
      {chain : List Inclusion} {t : Statement} {machine machine' : Machine σ} {callSite : Span}
      (hgoes : setting.isCancelled (machine.polled setting).host = false)
      (hspan : setting.span range = .ok callSite)
      (hbody : machine.mixins.get? name = some body)
      (h : ComesIn setting depth body ((machine.polled setting).enterMixin name callSite) chain t
        machine') :
      ComesIn setting (depth + 1) (.includeMixin range name :: statements) machine
        (⟨name, callSite⟩ :: chain) t machine'

variable {setting : Setting σ} {depth : Nat} {statements : List Statement}
  {machine machine' : Machine σ} {t : Statement} {chain : List Inclusion}

/-- Whatever a run comes to, it comes to in a chain of inclusions. -/
theorem Comes.exists_chain (h : Comes setting depth statements machine t machine') :
    ∃ chain, ComesIn setting depth statements machine chain t machine' := by
  induction h with
  | here => exact ⟨[], .here⟩
  | later hrun h ih =>
    obtain ⟨chain, ih⟩ := ih
    exact ⟨chain, .later hrun ih⟩
  | inRule hgoes h ih =>
    obtain ⟨chain, ih⟩ := ih
    exact ⟨chain, .inRule hgoes ih⟩
  | inMixin hgoes hspan hbody h ih =>
    obtain ⟨chain, ih⟩ := ih
    exact ⟨_, .inMixin hgoes hspan hbody ih⟩

/-- A statement that has run has left the call stack as it was. -/
theorem stack_eq_of_run {s : Statement} {machine₁ : Machine σ}
    (hrun : s.run setting (setting.runMixin depth) machine = .ok () machine₁) :
    machine₁.stack = machine.stack := by
  have hkeeps : Machine.Frames machine
      (Machine.after (s.run setting (setting.runMixin depth)) machine) :=
    run_keeps Machine.frames_isKept (runMixin_keeps setting Machine.frames_isKept depth) s machine
  rw [Machine.after, hrun] at hkeeps
  exact hkeeps.stack_eq

/-- The frames of the inclusions under way lie on those from which the run set out. -/
theorem ComesIn.frames_eq (h : ComesIn setting depth statements machine chain t machine') :
    machine'.stack.frames = chain.reverse.map Inclusion.frame ++ machine.stack.frames := by
  induction h with
  | here => rfl
  | later hrun h ih => rw [ih, stack_eq_of_run hrun]
  | inRule hgoes h ih => exact ih
  | inMixin hgoes hspan hbody h ih =>
    rw [ih, List.reverse_cons, List.map_append, List.append_assoc]
    rfl

/-- The call stack is that of the inclusions under way. -/
theorem ComesIn.stack_eq (h : ComesIn setting depth statements machine chain t machine')
    (hstart : machine.stack = {}) : machine'.stack = Inclusion.stack chain := by
  have hframes := h.frames_eq
  rw [hstart, List.append_nil] at hframes
  exact congrArg CallStack.mk hframes

/-- The inclusions under way are those of a program, each at its span. -/
theorem ComesIn.exists_includeMixin {setting : Setting (Transcript σ)} (hnotes : setting.Notes)
    {program : List Statement} {machine machine' : Machine (Transcript σ)}
    (h : ComesIn setting depth statements machine chain t machine') (hknows : machine.Knows program)
    (hin : ∀ s ∈ nodesIn statements, s ∈ nodesIn program) :
    ∀ inclusion ∈ chain, ∃ range, .includeMixin range inclusion.mixin ∈ nodesIn program ∧
      setting.span range = .ok inclusion.span := by
  induction h with
  | here => simp
  | later hrun h ih =>
    exact ih (knows_of_run hnotes hrun hknows (forall_nodes_first hin)) (forall_nodes_rest hin)
  | inRule hgoes h ih => exact ih hknows (forall_nodes_inner hin)
  | inMixin hgoes hspan hbody h ih =>
    refine List.forall_mem_cons.mpr ⟨?_, ih hknows (hknows _ _ hbody)⟩
    exact ⟨_, hin _ List.mem_cons_self, hspan⟩

/-- A warning carries the span that it is about and the trace of the moment. -/
theorem Says.warning_eq {s : Statement} {range : Range} {span : Span} {message : String}
    {options : WarnOptions} (h : s.Says setting machine range span (.warn message options)) :
    options.span = some span ∧ options.stack = some (machine.stack.trace span) := by
  cases h <;> exact ⟨rfl, rfl⟩

/-- A run of statements comes, in a chain of inclusions, to a statement that says a diagnostic about
a span. -/
def HearsIn (setting : Setting σ) (depth : Nat) (statements : List Statement) (machine : Machine σ)
    (chain : List Inclusion) (span : Span) (diagnostic : Diagnostic) : Prop :=
  ∃ s machine' range, ComesIn setting depth statements machine chain s machine' ∧
    setting.span range = .ok span ∧ s.Says setting machine' range span diagnostic

theorem Hears.exists_chain {diagnostic : Diagnostic}
    (h : Hears setting depth statements machine diagnostic) :
    ∃ chain span, HearsIn setting depth statements machine chain span diagnostic := by
  obtain ⟨s, machine', range, span, hcomes, hspan, hsays⟩ := h
  obtain ⟨chain, hcomes⟩ := hcomes.exists_chain
  exact ⟨chain, span, s, machine', range, hcomes, hspan, hsays⟩

/-- The trace of a warning is that of the inclusions under way, from the span that it is about. -/
theorem HearsIn.warning_eq {span : Span} {message : String} {options : WarnOptions}
    (h : HearsIn setting depth statements machine chain span (.warn message options))
    (hstart : machine.stack = {}) :
    options.span = some span ∧ options.stack = some ((Inclusion.stack chain).trace span) := by
  obtain ⟨s, machine', range, hcomes, _, hsays⟩ := h
  rw [← hcomes.stack_eq hstart]
  exact hsays.warning_eq

end Statement

end Stylesheet
