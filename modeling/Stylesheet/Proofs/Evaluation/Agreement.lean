import Stylesheet.Proofs.Evaluation.Script
import Stylesheet.Report.CallStack

/-!
# Outcomes that agree but for spans

Diagnostics, errors and call stacks whose spans are replaced. As long as the replacement is shown to
a reader as the same place, no text changes: neither a message nor a trace nor a rendering. Two acts
agree if they come to the same value, or to the same error with its span replaced.
-/

namespace Stylesheet

variable {α β S T : Type} {f : Span → Span}

/-! ## Other spans -/

/-- The same diagnostic with another span. -/
def Diagnostic.mapSpan (f : Span → Span) : Diagnostic → Diagnostic
  | .warn message options => .warn message { options with span := options.span.map f }
  | .debug message options => .debug message ⟨f options.span⟩

/-- The same error with another span. -/
def CompileError.mapSpan (f : Span → Span) : CompileError → CompileError
  | .malformed fault span => .malformed fault (f span)
  | .undefinedVariable name span => .undefinedVariable name (f span)
  | .undefinedMixin name span => .undefinedMixin name (f span)
  | .operation fault span => .operation fault (f span)
  | error => error

/-- The same stack with other spans. -/
def CallStack.mapSpan (f : Span → Span) (stack : CallStack) : CallStack :=
  ⟨stack.frames.map fun frame => { frame with callSite := f frame.callSite }⟩

theorem Diagnostic.channel_mapSpan (f : Span → Span) (diagnostic : Diagnostic) :
    (diagnostic.mapSpan f).channel = diagnostic.channel := by
  cases diagnostic <;> rfl

theorem CallStack.mapSpan_push (f : Span → Span) (stack : CallStack) (member : String)
    (callSite : Span) :
    (stack.push member callSite).mapSpan f = (stack.mapSpan f).push member (f callSite) := rfl

theorem CallStack.mapSpan_pop (f : Span → Span) (stack : CallStack) :
    stack.pop.2.mapSpan f = (stack.mapSpan f).pop.2 := by
  simp [mapSpan, pop, List.map_tail]

theorem Diagnostic.mapSpan_id (diagnostic : Diagnostic) : diagnostic.mapSpan id = diagnostic := by
  cases diagnostic <;> simp [mapSpan]

theorem CompileError.mapSpan_id (error : CompileError) : error.mapSpan id = error := by
  cases error <;> rfl

theorem CallStack.mapSpan_id (stack : CallStack) : stack.mapSpan id = stack := by
  simp [mapSpan]

section

variable (hf : ∀ span : Span, toString (f span) = toString span)

include hf

theorem CompileError.message_mapSpan (error : CompileError) :
    (error.mapSpan f).message = error.message := by
  delta message
  cases error with
  | malformed | undefinedVariable | undefinedMixin | operation =>
    dsimp only [mapSpan]
    rw [hf]
  | report | location | io | cancelled | tooDeep => dsimp only [mapSpan]

theorem CallStack.traceLine_mapSpan (span : Span) (member : String) :
    traceLine (f span) member = traceLine span member := by
  simp [traceLine, hf]

theorem CallStack.traceLines_mapSpan (span : Span) (frames : List Frame) :
    traceLines (f span) (frames.map fun frame => { frame with callSite := f frame.callSite }) =
      traceLines span frames := by
  induction frames generalizing span with
  | nil => simp [traceLines, traceLine_mapSpan hf]
  | cons frame frames ih => simp [traceLines, traceLine_mapSpan hf, ih]

/-- A trace shows of its spans only what is never changed. -/
theorem CallStack.trace_mapSpan (stack : CallStack) (span : Span) :
    (stack.mapSpan f).trace (f span) = stack.trace span := by
  rw [trace, trace, mapSpan, traceLines_mapSpan hf]

theorem Setting.warning_mapSpan (message : String) (span : Span) (deprecation : Bool)
    (stack : CallStack) :
    (warning message span deprecation stack).mapSpan f =
      warning message (f span) deprecation (stack.mapSpan f) := by
  rw [warning, warning, CallStack.trace_mapSpan hf]
  rfl

theorem Diagnostic.render_mapSpan (diagnostic : Diagnostic) :
    (diagnostic.mapSpan f).render = diagnostic.render := by
  cases diagnostic with
  | warn message options =>
    obtain ⟨deprecation, span, stack⟩ := options
    cases span <;> simp [mapSpan, render, hf]
  | debug message options => simp [mapSpan, render, hf]

end

/-! ## Outcomes -/

/-- Both acts have the same value, or they have related errors. The states that they leave are
related. -/
def Alike {ε ε' : Type} (errors : ε → ε' → Prop) (states : S → T → Prop) :
    EStateM.Result ε S α → EStateM.Result ε' T α → Prop
  | .ok a s, .ok b t => a = b ∧ states s t
  | .error error s, .error error' t => errors error error' ∧ states s t
  | _, _ => False

/-- Both acts have the same value, or they have the same error but for its span. The states that
they leave are related. -/
def Agree (f : Span → Span) (rel : S → T → Prop) :
    EStateM.Result CompileError S α → EStateM.Result CompileError T α → Prop :=
  Alike (fun error error' => error.mapSpan f = error') rel

/-- Both acts have the same value or the same error, and leave states of which nobody sees that they
differ. -/
def SameOutcome {ε : Type} (same : S → S → Prop) :
    EStateM.Result ε S α → EStateM.Result ε S α → Prop :=
  Alike Eq same

namespace Alike

variable {U ε ε' ε'' : Type} {errors : ε → ε' → Prop} {states : S → T → Prop}

theorem bind {act : EStateM ε S α} {act' : EStateM ε' T α} {next : α → EStateM ε S β}
    {next' : α → EStateM ε' T β} {s : S} {t : T} (h : Alike errors states (act s) (act' t))
    (hnext : ∀ a s t, states s t → Alike errors states (next a s) (next' a t)) :
    Alike errors states ((act >>= next) s) ((act' >>= next') t) := by
  cases hact : act s <;> cases hact' : act' t <;> rw [hact, hact'] at h
  · obtain ⟨rfl, hstates⟩ := h
    rw [bind_of_ok hact, bind_of_ok hact']
    exact hnext _ _ _ hstates
  · contradiction
  · contradiction
  · rw [bind_of_error hact, bind_of_error hact']
    exact h

theorem mono {states' : S → T → Prop} {a : EStateM.Result ε S α} {b : EStateM.Result ε' T α}
    (h : Alike errors states a b) (himp : ∀ s t, states s t → states' s t) :
    Alike errors states' a b := by
  cases a <;> cases b <;> first | exact h.imp_right (himp _ _) | exact h

theorem symm {a : EStateM.Result ε S α} {b : EStateM.Result ε' T α}
    (h : Alike errors states a b) :
    Alike (fun error' error => errors error error') (fun t s => states s t) b a := by
  cases a <;> cases b
  · exact h.imp_left Eq.symm
  · contradiction
  · contradiction
  · exact h

theorem trans {errors' : ε' → ε'' → Prop} {errors'' : ε → ε'' → Prop} {states' : T → U → Prop}
    {states'' : S → U → Prop} {a : EStateM.Result ε S α} {b : EStateM.Result ε' T α}
    {c : EStateM.Result ε'' U α} (hab : Alike errors states a b) (hbc : Alike errors' states' b c)
    (herrors : ∀ d e f, errors d e → errors' e f → errors'' d f)
    (hstates : ∀ s t u, states s t → states' t u → states'' s u) :
    Alike errors'' states'' a c := by
  cases a <;> cases b <;> first | contradiction | skip
  all_goals cases c <;> first | contradiction | skip
  · exact ⟨hab.1.trans hbc.1, hstates _ _ _ hab.2 hbc.2⟩
  · exact ⟨herrors _ _ _ hab.1 hbc.1, hstates _ _ _ hab.2 hbc.2⟩

end Alike

theorem SameOutcome.adaptExcept {ε ε' : Type} {same : S → S → Prop} {act act' : EStateM ε S α}
    {s s' : S} (h : SameOutcome same (act s) (act' s')) (f : ε → ε') :
    SameOutcome same (act.adaptExcept f s) (act'.adaptExcept f s') := by
  rw [EStateM.adaptExcept, EStateM.adaptExcept]
  cases hact : act s <;> cases hact' : act' s' <;> rw [hact, hact'] at h
  · exact h
  · contradiction
  · contradiction
  · exact ⟨congrArg f h.1, h.2⟩

/-- Two acts that agree with a third one, spans included, have the same outcome. -/
theorem Agree.sameOutcome {rel rel' : S → T → Prop} {a b : EStateM.Result CompileError S α}
    {c : EStateM.Result CompileError T α} (ha : Agree id rel a c) (hb : Agree id rel' b c) :
    SameOutcome (fun s s' => ∃ t, rel s t ∧ rel' s' t) a b := by
  apply Alike.trans ha hb.symm
  · intro error error' error'' h h'
    rw [← error.mapSpan_id, ← error''.mapSpan_id, h, h']
  · intro s t s' h h'
    exact ⟨t, h, h'⟩

end Stylesheet
