import Stylesheet.Proofs.Compilation.Script

/-!
# Hosts that never fail

A watched host whose actions never fail takes all diagnostics of a compilation that it does not
cancel. Each of them has its one place, and what is written are the diagnostics that went to the
stream.
-/

namespace Stylesheet

variable {σ : Type} {α : Type}

/-- Whether a watched host takes every diagnostic, at a place and with bytes that the diagnostic
alone decides, and nothing else gets on record. -/
structure Setting.Records (setting : Setting (Transcript σ)) (sink : Diagnostic → Sink)
    (bytes : Diagnostic → List UInt8) : Prop where
  deliver : ∀ diagnostic t, ∃ host, setting.deliver diagnostic t =
    .ok () ⟨host, t.calls ++ [(sink diagnostic, diagnostic)], t.written ++ bytes diagnostic⟩
  meanwhile : ∀ t, ∃ host, setting.meanwhile t = { t with host := host }

variable {setting : Setting (Transcript σ)} {sink : Diagnostic → Sink}
  {bytes : Diagnostic → List UInt8}

theorem Setting.Records.calls_meanwhile (h : setting.Records sink bytes) (t : Transcript σ) :
    (setting.meanwhile t).calls = t.calls := by
  obtain ⟨host, hmeanwhile⟩ := h.meanwhile t
  rw [hmeanwhile]

/-! ## Watched hosts record -/

theorem HostM.NeverFails.forward {ε : Type} {act : HostM ε σ Unit} (h : HostM.NeverFails act)
    (t : Transcript σ) :
    ∃ host, Transcript.forward act t = .ok () { t with host := host } := by
  obtain ⟨host, hact⟩ := h t.host
  exact ⟨host, by rw [Transcript.forward, hact]⟩

theorem Setting.records_of_watched {dispatcher : Dispatcher σ}
    (hlogger : dispatcher.logger.NeverFails)
    (hfallback : DefaultChannel.NeverFails dispatcher.fallback)
    (h : setting.dispatch = dispatcher.watched.deliver)
    (hmeanwhile : ∀ t, ∃ host, setting.meanwhile t = { t with host := host }) :
    setting.Records dispatcher.logger.sink fun _ => [] := by
  refine ⟨?_, hmeanwhile⟩
  intro diagnostic t
  have hdeliver := Dispatcher.deliver_neverFails hlogger hfallback diagnostic
  obtain ⟨host, hrun⟩ := hdeliver.forward (t.note (dispatcher.logger.sink diagnostic) diagnostic)
  refine ⟨host, ?_⟩
  rw [deliver, EStateM.adaptExcept, h, Dispatcher.deliver_watched, hrun]
  simp

theorem CompileOptions.records_watched (options : CompileOptions σ) (hoptions : options.NeverFails)
    (url : Option Url) (source : String) :
    (options.watched.setting url source).Records options.logger.sink fun _ => [] := by
  have hdispatch : (options.watched.setting url source).dispatch =
      (Dispatcher.watched ⟨options.logger, options.fallback⟩).deliver := rfl
  exact Setting.records_of_watched hoptions.logger hoptions.fallback hdispatch fun _ => ⟨_, rfl⟩

/-- The bytes that a logger leaves to a stream. -/
def Logger.leftover (logger : Logger σ) (diagnostic : Diagnostic) : List UInt8 :=
  if logger.takes diagnostic.channel then [] else Text.Utf8.encode diagnostic.render

/-- A host that is watched down to the bytes that its stream is asked to take. -/
def Dispatcher.streamed (logger : Logger σ) (stream : ByteStream σ) : Dispatcher (Transcript σ) :=
  ⟨logger.watched, DefaultChannel.noted stream.watched.channel⟩

theorem Setting.records_of_streamed {logger : Logger σ} {stream : ByteStream σ}
    (hlogger : logger.NeverFails) (hstream : DefaultChannel.NeverFails stream.channel)
    (h : setting.dispatch = (Dispatcher.streamed logger stream).deliver)
    (hmeanwhile : ∀ t, ∃ host, setting.meanwhile t = { t with host := host }) :
    setting.Records logger.sink logger.leftover := by
  refine ⟨?_, hmeanwhile⟩
  intro diagnostic t
  rw [deliver, EStateM.adaptExcept, h, Dispatcher.deliver, Dispatcher.streamed,
    Logger.action?_watched, Logger.sink, Logger.leftover]
  cases haction : logger.action? diagnostic with
  | none =>
    have htakes : logger.takes diagnostic.channel = false :=
      (Logger.action?_eq_none_iff logger diagnostic).mp haction
    let encoded := Text.Utf8.encode diagnostic.render
    obtain ⟨host, host', hwrite, hflush⟩ := ByteStream.exists_write hstream diagnostic t.host
    let noted := (t.note .fallback diagnostic).noteBytes encoded
    have hwrite : stream.watched.write encoded (t.note .fallback diagnostic) =
        .ok () { noted with host := host } := by
      change Transcript.forward (stream.write encoded) noted = _
      rw [Transcript.forward, show stream.write encoded noted.host = _ from hwrite]
    have hflush : stream.watched.flush { noted with host := host } =
        .ok () { noted with host := host' } := by
      change Transcript.forward stream.flush { noted with host := host } = _
      rw [Transcript.forward, hflush]
    refine ⟨host', ?_⟩
    have hchannel : DefaultChannel.noted stream.watched.channel diagnostic t = .ok ()
        ⟨host', t.calls ++ [(.fallback, diagnostic)], t.written ++ encoded⟩ :=
      (bind_of_ok hwrite).trans hflush
    simp [htakes, EStateM.adaptExcept, hchannel, encoded]
  | some act =>
    have htakes : logger.takes diagnostic.channel = true := by
      rw [← Logger.isSome_action?, haction]
      rfl
    obtain ⟨host, hact⟩ := (hlogger.action haction).forward (t.note .logger diagnostic)
    refine ⟨host, ?_⟩
    simp [htakes, EStateM.adaptExcept, hact]

/-! ## Scripts of hosts that record -/

/-- A host that neither cancels nor fails lets steps come to their end. -/
theorem Step.runAll_of_records (hrecords : setting.Records sink bytes)
    (hfree : ∀ t, setting.isCancelled t = false) (steps : List Step) (t : Transcript σ) :
    ∃ host, runAll setting steps t =
      .ok () ⟨host, t.calls ++ (reported steps).map fun d => (sink d, d),
        t.written ++ (reported steps).flatMap bytes⟩ := by
  let told (taken : List Diagnostic) (t' : Transcript σ) : Prop :=
    ∃ host, t' = ⟨host, t.calls ++ taken.map fun d => (sink d, d), t.written ++ taken.flatMap bytes⟩
  have htakes (taken : List Diagnostic) (diagnostic : Diagnostic) (t' : Transcript σ)
      (htold : told taken t') :
      ∃ next, setting.deliver diagnostic t' = .ok () next ∧ told (taken ++ [diagnostic]) next := by
    obtain ⟨host, rfl⟩ := htold
    obtain ⟨host', hdeliver⟩ := hrecords.deliver diagnostic _
    exact ⟨_, hdeliver, host', by simp⟩
  have hmeanwhile (taken : List Diagnostic) (t' : Transcript σ) (htold : told taken t') :
      told taken (setting.meanwhile t') := by
    obtain ⟨host, rfl⟩ := htold
    exact hrecords.meanwhile _
  obtain ⟨_, hrun, host, rfl⟩ := exists_runAll hfree hmeanwhile htakes steps [] t ⟨t.host, by simp⟩
  exact ⟨host, hrun⟩

/-- A script comes to its result with a host that neither cancels nor fails. -/
theorem Script.outcome_of_records (hrecords : setting.Records sink bytes)
    (hfree : ∀ t, setting.isCancelled t = false) (script : Script α) (host : σ) :
    ∃ host', script.outcome setting ⟨host, [], []⟩ =
      (script.result, ⟨host', (Step.reported script.steps).map fun d => (sink d, d),
        (Step.reported script.steps).flatMap bytes⟩) := by
  obtain ⟨host', hrun⟩ := Step.runAll_of_records hrecords hfree script.steps ⟨host, [], []⟩
  exact ⟨host', outcome_of_runAll_ok hrun⟩

end Stylesheet
