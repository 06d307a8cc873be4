import Stylesheet.Proofs.Evaluation.Script
import Stylesheet.Proofs.Report.Transcript

/-!
# What acts tell a watched host

A triple for acts on states that hold a transcript: which diagnostics an act adds to it, with
which errors it can fail, and what it leaves of the state otherwise.
-/

namespace Stylesheet

variable {σ : Type} {α β S S' : Type}

/-! ## What an act tells a watched host -/

/-- A transcript goes on from another one with calls as described. -/
def Transcript.Extends (good : Diagnostic → Prop) (before after : Transcript σ) : Prop :=
  ∃ calls, after.calls = before.calls ++ calls ∧ ∀ call ∈ calls, good call.2

namespace Transcript.Extends

variable {good good' : Diagnostic → Prop} {a b c : Transcript σ}

theorem refl (a : Transcript σ) : Extends good a a := ⟨[], by simp, by simp⟩

theorem trans (hab : Extends good a b) (hbc : Extends good b c) : Extends good a c := by
  obtain ⟨calls, hb, hcalls⟩ := hab
  obtain ⟨more, hc, hmore⟩ := hbc
  refine ⟨calls ++ more, by rw [hc, hb, List.append_assoc], ?_⟩
  intro call hcall
  rcases List.mem_append.mp hcall with hcall | hcall
  · exact hcalls call hcall
  · exact hmore call hcall

theorem mono (h : Extends good a b) (himp : ∀ d, good d → good' d) : Extends good' a b := by
  obtain ⟨calls, hb, hcalls⟩ := h
  exact ⟨calls, hb, fun call hcall => himp _ (hcalls call hcall)⟩

end Transcript.Extends

/-- The result of an act, seen through a view of its states: what it told the host, its error if it
has one, and otherwise what is left of the states. -/
def Tells (view : S → Transcript σ) (good : Diagnostic → Prop) (bad : CompileError → Prop)
    (kept : S → Prop) (before : S) (result : EStateM.Result CompileError S α) : Prop :=
  match result with
  | .ok _ after => (view before).Extends good (view after) ∧ kept after
  | .error error after => (view before).Extends good (view after) ∧ bad error

namespace Tells

variable {view : S → Transcript σ} {good good' : Diagnostic → Prop}
  {bad bad' : CompileError → Prop} {kept kept' : S → Prop} {s : S}

theorem mono {result : EStateM.Result CompileError S α} (h : Tells view good bad kept s result)
    (hgood : ∀ d, good d → good' d) (hbad : ∀ e, bad e → bad' e) :
    Tells view good' bad' kept s result := by
  cases result with
  | ok a after => exact ⟨h.1.mono hgood, h.2⟩
  | error error after => exact ⟨h.1.mono hgood, hbad _ h.2⟩

theorem mono_good {result : EStateM.Result CompileError S α}
    (h : Tells view good bad kept s result) (hgood : ∀ d, good d → good' d) :
    Tells view good' bad kept s result :=
  h.mono hgood fun _ hbad => hbad

theorem keeping {result : EStateM.Result CompileError S α} (h : Tells view good bad kept s result)
    (hkept : ∀ after, kept after → kept' after) : Tells view good bad kept' s result := by
  cases result with
  | ok a after => exact ⟨h.1, hkept _ h.2⟩
  | error error after => exact h

/-- What an act tells that starts where another state has come to. -/
theorem after {s s' : S} {result : EStateM.Result CompileError S α}
    (h : Tells view good bad kept s' result) (hstart : (view s).Extends good (view s')) :
    Tells view good bad kept s result := by
  cases result with
  | ok a last => exact ⟨hstart.trans h.1, h.2⟩
  | error error last => exact ⟨hstart.trans h.1, h.2⟩

/-- An act that goes on from the value and the state of another one. -/
theorem bind {act : EStateM CompileError S α} {next : α → EStateM CompileError S β}
    (h : Tells view good bad kept s (act s))
    (hnext : ∀ a after, act s = .ok a after → kept after →
      Tells view good bad kept' after (next a after)) :
    Tells view good bad kept' s ((act >>= next) s) := by
  cases hact : act s with
  | ok a after =>
    rw [hact] at h
    rw [bind_of_ok hact]
    exact (hnext a after hact h.2).after h.1
  | error error after =>
    rw [hact] at h
    rw [bind_of_error hact]
    exact h

/-- An act that goes on from another one of which nothing is kept. -/
theorem andThen {act : EStateM CompileError S α} {next : α → EStateM CompileError S β}
    (h : Tells view good bad (fun _ => True) s (act s))
    (hnext : ∀ a after, act s = .ok a after → Tells view good bad kept' after (next a after)) :
    Tells view good bad kept' s ((act >>= next) s) :=
  h.bind fun a after hact _ => hnext a after hact

theorem pure (a : α) (hkept : kept s) :
    Tells view good bad kept s ((Pure.pure a : EStateM CompileError S α) s) :=
  ⟨.refl _, hkept⟩

theorem throw {error : CompileError} (hbad : bad error) :
    Tells view good bad kept s ((MonadExcept.throw error : EStateM CompileError S α) s) :=
  ⟨.refl _, hbad⟩

end Tells

/-! ## Faults -/

/-- The errors of an evaluation of statements and expressions over some ranges. -/
inductive Setting.Faults (setting : Setting σ) (ranges : List Range) : CompileError → Prop where
  | cancelled : Faults setting ranges .cancelled
  | tooDeep : Faults setting ranges .tooDeep
  | report (error : ReportError) : Faults setting ranges (.report error)
  | within {range : Range} {span : Span} {error : CompileError} (hrange : range ∈ ranges)
      (hspan : setting.span range = .ok span) (herror : error.span? = some span)
      (hkind : ∀ fault, error ≠ .malformed fault span) : Faults setting ranges error
  | span {range : Range} {error : CompileError} (hrange : range ∈ ranges)
      (hspan : setting.span range = .error error) : Faults setting ranges error

theorem Setting.Faults.mono {setting : Setting σ} {ranges ranges' : List Range}
    {error : CompileError} (h : setting.Faults ranges error)
    (hsub : ∀ range ∈ ranges, range ∈ ranges') : setting.Faults ranges' error := by
  cases h with
  | cancelled => exact .cancelled
  | tooDeep => exact .tooDeep
  | report error => exact .report error
  | within hrange hspan herror hkind => exact .within (hsub _ hrange) hspan herror hkind
  | span hrange hspan => exact .span (hsub _ hrange) hspan

/-! ## Acts that tell at most one thing -/

namespace Tells

variable {view : S → Transcript σ} {good : Diagnostic → Prop} {kept : S → Prop} {s : S}
  {setting : Setting (Transcript σ)} {ranges : List Range}

/-- An act that goes on from the span of a range. -/
theorem span_bind {range : Range} {next : Span → EStateM CompileError S β}
    (hrange : range ∈ ranges)
    (hnext : ∀ span, setting.span range = .ok span →
      Tells view good (setting.Faults ranges) kept s (next span s)) :
    Tells view good (setting.Faults ranges) kept s
      ((MonadExcept.ofExcept (setting.span range) >>= next) s) := by
  cases hspan : setting.span range with
  | ok span => exact hnext span hspan
  | error error => exact ⟨.refl _, .span hrange hspan⟩

end Tells

/-- Whether the host of a setting records each diagnostic that it is handed, and nothing else. -/
structure Setting.Notes (setting : Setting (Transcript σ)) : Prop where
  deliver : ∀ diagnostic t, Tells id (· = diagnostic) (setting.Faults []) (fun _ => True) t
    (setting.deliver diagnostic t)
  calls_meanwhile : ∀ t, (setting.meanwhile t).calls = t.calls

/-- A poll adds nothing to what the host has on record. -/
theorem Setting.Notes.extends_meanwhile {setting : Setting (Transcript σ)} (h : setting.Notes)
    (good : Diagnostic → Prop) (t : Transcript σ) : t.Extends good (setting.meanwhile t) :=
  ⟨[], by simpa using h.calls_meanwhile t, by simp⟩

/-- An act that starts with a poll. -/
theorem Tells.poll_bind {setting : Setting (Transcript σ)} (hnotes : setting.Notes)
    {good : Diagnostic → Prop} {ranges : List Range} {t : Transcript σ}
    {kept : Transcript σ → Prop} {next : Unit → HostM CompileError (Transcript σ) β}
    (hnext : setting.isCancelled (setting.meanwhile t) = false →
      Tells id good (setting.Faults ranges) kept (setting.meanwhile t)
        (next () (setting.meanwhile t))) :
    Tells id good (setting.Faults ranges) kept t ((setting.checkCancelled >>= next) t) := by
  have hpoll := hnotes.extends_meanwhile good t
  cases hgoes : setting.isCancelled (setting.meanwhile t) with
  | true =>
    rw [bind_of_error (Setting.checkCancelled_of_true hgoes)]
    exact ⟨hpoll, .cancelled⟩
  | false =>
    rw [bind_of_ok (Setting.checkCancelled_of_false hgoes)]
    exact (hnext hgoes).after hpoll

theorem Setting.notes_of_watched {setting : Setting (Transcript σ)} {dispatcher : Dispatcher σ}
    (h : setting.dispatch = dispatcher.watched.deliver)
    (hmeanwhile : ∀ t, (setting.meanwhile t).calls = t.calls) : setting.Notes := by
  refine ⟨?_, hmeanwhile⟩
  intro diagnostic t
  let sink := dispatcher.logger.sink diagnostic
  have hnote : t.Extends (· = diagnostic) (t.note sink diagnostic) :=
    ⟨[(sink, diagnostic)], rfl, by simp⟩
  rw [deliver, EStateM.adaptExcept, h, Dispatcher.deliver_watched, Transcript.forward]
  cases dispatcher.deliver diagnostic (t.note sink diagnostic).host with
  | ok _ host => exact ⟨hnote, trivial⟩
  | error error host => exact ⟨hnote, .report error⟩

end Stylesheet
