import Stylesheet.Proofs.Compilation.Script

/-!
# Watching a compilation

A host can be watched without a change to its compilation: `compile_of_watches` says so for every
way of watching that leaves its acts alone.
-/

namespace Stylesheet

variable {σ : Type} {α β : Type}

/-- Whether an act on a transcript does on the host's side what an act of the host does. -/
def Watches {ε : Type} (watched : HostM ε (Transcript σ) α) (act : HostM ε σ α) : Prop :=
  ∀ t : Transcript σ, (∃ a t', watched t = .ok a t' ∧ act t.host = .ok a t'.host) ∨
    ∃ error t', watched t = .error error t' ∧ act t.host = .error error t'.host

namespace Watches

variable {ε ε' : Type}

theorem pure (a : α) : Watches (Pure.pure a : HostM ε (Transcript σ) α) (Pure.pure a) := by
  intro t
  exact .inl ⟨a, t, rfl, rfl⟩

theorem throw (error : ε) :
    Watches (MonadExcept.throw error : HostM ε (Transcript σ) α) (MonadExcept.throw error) := by
  intro t
  exact .inr ⟨error, t, rfl, rfl⟩

theorem forward (act : HostM ε σ α) : Watches (Transcript.forward act) act := by
  intro t
  rw [Transcript.forward]
  cases act t.host with
  | ok a host => exact .inl ⟨a, _, rfl, rfl⟩
  | error error host => exact .inr ⟨error, _, rfl, rfl⟩

variable {watched : HostM ε (Transcript σ) α} {act : HostM ε σ α}

theorem bind {watchedNext : α → HostM ε (Transcript σ) β} {next : α → HostM ε σ β}
    (h : Watches watched act) (hnext : ∀ a, Watches (watchedNext a) (next a)) :
    Watches (watched >>= watchedNext) (act >>= next) := by
  intro t
  rcases h t with ⟨a, t', hwatched, hact⟩ | ⟨error, t', hwatched, hact⟩
  · rw [bind_of_ok hwatched, bind_of_ok hact]
    exact hnext a t'
  · exact .inr ⟨error, t', bind_of_error hwatched, bind_of_error hact⟩

theorem adaptExcept (h : Watches watched act) (f : ε → ε') :
    Watches (watched.adaptExcept f) (act.adaptExcept f) := by
  intro t
  rcases h t with ⟨a, t', hwatched, hact⟩ | ⟨error, t', hwatched, hact⟩
  · exact .inl ⟨a, t', by simp [EStateM.adaptExcept, hwatched],
      by simp [EStateM.adaptExcept, hact]⟩
  · exact .inr ⟨f error, t', by simp [EStateM.adaptExcept, hwatched],
      by simp [EStateM.adaptExcept, hact]⟩

/-- A note in front of an act is not seen by the host. -/
theorem note (h : Watches watched act) {f : Transcript σ → Transcript σ}
    (hf : ∀ t, (f t).host = t.host) : Watches (fun t => watched (f t)) act := by
  intro t
  have hrun := h (f t)
  rwa [hf] at hrun

end Watches

/-- Whether a dispatcher does on the host's side what a dispatcher of the host does. -/
def Dispatcher.Watches (watched : Dispatcher (Transcript σ)) (dispatcher : Dispatcher σ) : Prop :=
  ∀ diagnostic, Stylesheet.Watches (watched.deliver diagnostic) (dispatcher.deliver diagnostic)

/-- A watched logger next to a watched default channel. -/
theorem Dispatcher.watches_of_fallback {logger : Logger σ}
    {watched : DefaultChannel (Transcript σ)} {fallback : DefaultChannel σ}
    (h : ∀ diagnostic, Stylesheet.Watches (watched diagnostic) (fallback diagnostic)) :
    Dispatcher.Watches ⟨logger.watched, watched⟩ ⟨logger, fallback⟩ := by
  intro diagnostic
  rw [deliver, deliver, Logger.action?_watched]
  cases logger.action? diagnostic with
  | none => exact (h diagnostic).adaptExcept _
  | some act =>
    have hact := (Watches.forward act).note (f := Transcript.note .logger diagnostic) fun _ => rfl
    exact hact.adaptExcept _

/-- Whether a setting on transcripts does on the host's side what a setting of the host does. -/
structure Setting.Watches (watched : Setting (Transcript σ)) (setting : Setting σ) : Prop where
  dispatch : ∀ diagnostic,
    Stylesheet.Watches (watched.dispatch diagnostic) (setting.dispatch diagnostic)
  isCancelled_eq : ∀ t, watched.isCancelled t = setting.isCancelled t.host
  host_meanwhile : ∀ t, (watched.meanwhile t).host = setting.meanwhile t.host

theorem Setting.Watches.checkCancelled {watched : Setting (Transcript σ)} {setting : Setting σ}
    (h : watched.Watches setting) :
    Stylesheet.Watches watched.checkCancelled setting.checkCancelled := by
  intro t
  have hasked : watched.isCancelled (watched.meanwhile t) =
      setting.isCancelled (setting.meanwhile t.host) := by
    rw [h.isCancelled_eq, h.host_meanwhile]
  rw [Setting.checkCancelled_apply, Setting.checkCancelled_apply, hasked, ← h.host_meanwhile]
  split
  · exact .inr ⟨.cancelled, _, rfl, rfl⟩
  · exact .inl ⟨(), _, rfl, rfl⟩

theorem Step.watches_runAll {watched : Setting (Transcript σ)} {setting : Setting σ}
    (h : watched.Watches setting) (steps : List Step) :
    Watches (runAll watched steps) (runAll setting steps) := by
  induction steps with
  | nil => exact Watches.pure ()
  | cons step steps ih =>
    apply Watches.bind
    · cases step with
      | poll => exact h.checkCancelled
      | report diagnostic =>
        exact h.checkCancelled.bind fun _ =>
          (h.dispatch diagnostic).adaptExcept CompileError.report
    · intro _
      exact ih

theorem Script.watches_run {watched : Setting (Transcript σ)} {setting : Setting σ}
    (h : watched.Watches setting) (script : Script α) :
    Watches (script.run watched) (script.run setting) := by
  apply (Step.watches_runAll h script.steps).bind
  intro _
  cases script.result with
  | ok a => exact Watches.pure a
  | error error => exact Watches.throw error

/-- A compilation of a watched host has the result of the same compilation unwatched, and leaves
the host in the same state. -/
theorem compile_of_watches {watched : CompileOptions (Transcript σ)} {options : CompileOptions σ}
    (hdispatcher : Dispatcher.Watches ⟨watched.logger, watched.fallback⟩
      ⟨options.logger, options.fallback⟩)
    (hcontext : watched.includeContext = options.includeContext)
    (hcancelled : ∀ t, watched.isCancelled t = options.isCancelled t.host)
    (hmeanwhile : ∀ t, (watched.meanwhile t).host = options.meanwhile t.host) (url : Option Url)
    (source : String) (t : Transcript σ) :
    compile options url source t.host =
      ((compile watched url source t).1, (compile watched url source t).2.host) := by
  obtain ⟨script, _, hscript⟩ := exists_script url source options.includeContext
  rw [hscript.compile_eq options rfl, hscript.compile_eq watched hcontext]
  have hsetting : (watched.setting url source).Watches (options.setting url source) :=
    ⟨hdispatcher, hcancelled, hmeanwhile⟩
  have hrun := script.watches_run hsetting
  rw [Script.outcome, Script.outcome]
  rcases hrun t with ⟨a, t', hwatched, hact⟩ | ⟨error, t', hwatched, hact⟩
  · rw [hwatched, hact]
    rfl
  · rw [hwatched, hact]
    rfl

theorem CompileOptions.watches_watched (options : CompileOptions σ) :
    Dispatcher.Watches ⟨options.watched.logger, options.watched.fallback⟩
      ⟨options.logger, options.fallback⟩ := by
  apply Dispatcher.watches_of_fallback
  intro diagnostic
  exact (Watches.forward _).note fun _ => rfl

theorem compile_watched (options : CompileOptions σ) (url : Option Url) (source : String)
    (t : Transcript σ) :
    let run := compile options.watched url source t
    compile options url source t.host = (run.1, run.2.host) := by
  apply compile_of_watches options.watches_watched
  · rfl
  · intro _
    rfl
  · intro _
    rfl

end Stylesheet
