import Mathlib.Logic.Function.Basic
import Stylesheet.Proofs.Compilation.Cancellation
import Stylesheet.Proofs.Compilation.Locations
import Stylesheet.Proofs.Compilation.Watching

/-!
# Deliveries that fail

A logger whose action fails at one of its calls cuts a compilation there: what was delivered before
stays, the failing diagnostic goes nowhere else, nothing is delivered after it, and its error is
what the compilation returns (`delivery_failure_cuts`). None of the steps of a script handles an
error, so there is no other way to go on.
-/

namespace Stylesheet

variable {σ : Type}

/-- The two places to which a host sends diagnostics. -/
def CompileOptions.dispatcher (options : CompileOptions σ) : Dispatcher σ :=
  ⟨options.logger, options.fallback⟩

/-- How often the logger was called on a channel. -/
def Transcript.loggerCalls (channel : Channel) (calls : List (Sink × Diagnostic)) : Nat :=
  calls.countP fun call => call.1 = .logger ∧ call.2.channel = channel

/-- Two hosts are the same up to the logger's call of a number on a channel, counted from zero. At
this call the first host fails with a message, whereas the other one never fails. The number of
calls so far is read off the state of the host. -/
structure CompileOptions.FailsAt (failing free : CompileOptions σ) (channel : Channel) (call : Nat)
    (message : String) (calls : σ → Nat) : Prop where
  neverFails : free.NeverFails
  uncancelled : ∀ host, failing.isCancelled host = false ∧ free.isCancelled host = false
  meanwhile_eq : failing.meanwhile = free.meanwhile
  calls_meanwhile : ∀ host, calls (free.meanwhile host) = calls host
  includeContext_eq : failing.includeContext = free.includeContext
  takes : free.logger.takes channel = true
  takes_eq : failing.logger.takes = free.logger.takes
  calls_deliver : ∀ diagnostic host host',
    free.dispatcher.deliver diagnostic host = .ok () host' →
      calls host' = calls host + if diagnostic.channel = channel then 1 else 0
  deliver_eq : ∀ diagnostic host, (diagnostic.channel = channel → calls host < call) →
    failing.dispatcher.deliver diagnostic host = free.dispatcher.deliver diagnostic host
  fails : ∀ diagnostic host, diagnostic.channel = channel → calls host = call →
    ∃ act host', failing.logger.action? diagnostic = some act ∧ act host = .error message host'

/-! ## Deliveries -/

theorem CompileOptions.deliver_watched (options : CompileOptions σ) (url : Option Url)
    (source : String) (diagnostic : Diagnostic) (t : Transcript σ) :
    (options.watched.setting url source).deliver diagnostic t =
      Transcript.forward ((options.dispatcher.deliver diagnostic).adaptExcept CompileError.report)
        (t.note (options.logger.sink diagnostic) diagnostic) := by
  have hdeliver := Dispatcher.deliver_watched options.dispatcher diagnostic t
  have hsetting : (options.watched.setting url source).dispatch =
      options.dispatcher.watched.deliver := rfl
  rw [← Transcript.forward_adaptExcept, Setting.deliver, hsetting, EStateM.adaptExcept, hdeliver]
  rfl

namespace CompileOptions.FailsAt

variable {failing free : CompileOptions σ} {channel : Channel} {call : Nat} {message : String}
  {calls : σ → Nat}

theorem sink_eq (h : failing.FailsAt free channel call message calls) :
    failing.logger.sink = free.logger.sink := by
  funext diagnostic
  rw [Logger.sink, Logger.sink, h.takes_eq]

theorem sink_of_channel_eq (h : failing.FailsAt free channel call message calls)
    {diagnostic : Diagnostic} (hchannel : diagnostic.channel = channel) :
    free.logger.sink diagnostic = .logger := by
  rw [Logger.sink, hchannel, if_pos h.takes]

/-- The host that never fails records a diagnostic, and counts it if it is on the channel. -/
theorem exists_deliver (h : failing.FailsAt free channel call message calls) (url : Option Url)
    (source : String) (diagnostic : Diagnostic) (t : Transcript σ) :
    ∃ host, (free.watched.setting url source).deliver diagnostic t =
        .ok () ⟨host, t.calls ++ [(free.logger.sink diagnostic, diagnostic)], t.written⟩ ∧
      calls host = calls t.host + if diagnostic.channel = channel then 1 else 0 := by
  have hnever : HostM.NeverFails (free.dispatcher.deliver diagnostic) :=
    Dispatcher.deliver_neverFails h.neverFails.logger h.neverFails.fallback diagnostic
  obtain ⟨host, hdeliver⟩ := hnever t.host
  refine ⟨host, ?_, h.calls_deliver diagnostic t.host host hdeliver⟩
  simp only [deliver_watched, Transcript.forward, Transcript.note, EStateM.adaptExcept, hdeliver]

/-- Up to its call, the failing host does with a diagnostic what the other one does. -/
theorem watched_deliver_eq (h : failing.FailsAt free channel call message calls) (url : Option Url)
    (source : String) {diagnostic : Diagnostic} {t : Transcript σ}
    (hcall : diagnostic.channel = channel → calls t.host < call) :
    (failing.watched.setting url source).deliver diagnostic t =
      (free.watched.setting url source).deliver diagnostic t := by
  have hdeliver := h.deliver_eq diagnostic t.host hcall
  simp only [deliver_watched, h.sink_eq, Transcript.forward, Transcript.note, EStateM.adaptExcept,
    hdeliver]

/-- At its call, the failing host has the diagnostic, and nobody else gets it. -/
theorem watched_deliver_fails (h : failing.FailsAt free channel call message calls)
    (url : Option Url) (source : String) {diagnostic : Diagnostic} {t : Transcript σ}
    (hchannel : diagnostic.channel = channel) (hcall : calls t.host = call) :
    ∃ host, (failing.watched.setting url source).deliver diagnostic t =
      .error (.report (.callback channel message))
        ⟨host, t.calls ++ [(.logger, diagnostic)], t.written⟩ := by
  obtain ⟨act, host, haction, hact⟩ := h.fails diagnostic t.host hchannel hcall
  have hdeliver : failing.dispatcher.deliver diagnostic t.host =
      .error (.callback channel message) host := by
    simp only [Dispatcher.deliver, dispatcher, haction, EStateM.adaptExcept, hact, hchannel]
  refine ⟨host, ?_⟩
  simp only [deliver_watched, h.sink_eq, h.sink_of_channel_eq hchannel, Transcript.forward,
    Transcript.note, EStateM.adaptExcept, hdeliver]

/-! ## Steps -/

/-- Steps go on alike with both hosts, either to their end or up to the diagnostic with which the
failing host is called for the time at which it fails. -/
theorem runAll (h : failing.FailsAt free channel call message calls) (url : Option Url)
    (source : String) (steps : List Step) (t : Transcript σ) (hle : calls t.host ≤ call) :
    (calls t.host + (Step.reported steps).countP (·.channel = channel) ≤ call ∧
        Step.runAll (failing.watched.setting url source) steps t =
          Step.runAll (free.watched.setting url source) steps t) ∨
      ∃ before diagnostic after, Step.reported steps = before ++ diagnostic :: after ∧
        diagnostic.channel = channel ∧
        calls t.host + before.countP (·.channel = channel) = call ∧
        ∃ host, Step.runAll (failing.watched.setting url source) steps t =
          .error (.report (.callback channel message))
            ⟨host, t.calls ++ (before ++ [diagnostic]).map fun d => (free.logger.sink d, d),
              t.written⟩ := by
  let told (taken : List Diagnostic) (t' : Transcript σ) : Prop :=
    calls t'.host ≤ call ∧ calls t'.host = calls t.host + taken.countP (·.channel = channel) ∧
      ∃ host, t' = ⟨host, t.calls ++ taken.map fun d => (free.logger.sink d, d), t.written⟩
  let refuses (diagnostic : Diagnostic) (t : Transcript σ) : Prop :=
    diagnostic.channel = channel ∧ calls t.host = call
  have hkeeps (taken : List Diagnostic) (t' : Transcript σ) (htold : told taken t') :
      told taken ((free.watched.setting url source).meanwhile t') := by
    have hcalls := h.calls_meanwhile t'.host
    obtain ⟨hle, hcount, host, rfl⟩ := htold
    exact ⟨hcalls.le.trans hle, hcalls.trans hcount, _, rfl⟩
  have htakes (taken : List Diagnostic) (diagnostic : Diagnostic) (t' : Transcript σ)
      (htold : told taken t') (htaken : ¬ refuses diagnostic t') : ∃ next,
        (failing.watched.setting url source).deliver diagnostic t' = .ok () next ∧
        (free.watched.setting url source).deliver diagnostic t' = .ok () next ∧
        told (taken ++ [diagnostic]) next := by
    obtain ⟨hle, hcount, host, rfl⟩ := htold
    have hcall : diagnostic.channel = channel → calls host < call := fun hchannel =>
      Nat.lt_of_le_of_ne hle fun heq => htaken ⟨hchannel, heq⟩
    obtain ⟨host', hdeliver, hcalls⟩ := h.exists_deliver url source diagnostic _
    refine ⟨_, (h.watched_deliver_eq url source hcall).trans hdeliver, hdeliver, ?_, ?_, host',
      by simp⟩
    · dsimp only at hle hcalls ⊢
      split at hcalls <;> grind
    · simp only [List.countP_append, List.countP_singleton, decide_eq_true_eq, hcalls]
      dsimp only at hcount
      omega
  have hrefuses (taken : List Diagnostic) (diagnostic : Diagnostic) (t' : Transcript σ)
      (_ : told taken t') (hrefused : refuses diagnostic t') :
      ∃ error last, (failing.watched.setting url source).deliver diagnostic t' =
        .error error last :=
    (h.watched_deliver_fails url source hrefused.1 hrefused.2).elim fun _ hdeliver =>
      ⟨_, _, hdeliver⟩
  have hmeanwhile (t' : Transcript σ) : (failing.watched.setting url source).meanwhile t' =
      (free.watched.setting url source).meanwhile t' :=
    congrArg (fun meanwhile => { t' with host := meanwhile t'.host }) h.meanwhile_eq
  obtain ⟨t', hfailing, hfree, hle, hcount, _⟩ |
      ⟨before, diagnostic, after, t₁, error, t₂, hsplit, ⟨_, hcount, host, rfl⟩, hrefused,
        hdeliver, hrun⟩ :=
    Step.runAll_or_refused (fun t => h.uncancelled t.host) hmeanwhile hkeeps htakes hrefuses steps
      [] t ⟨hle, by simp, t.host, by simp⟩
  · exact .inl ⟨hcount ▸ hle, hfailing.trans hfree.symm⟩
  · obtain ⟨host', hfails⟩ := h.watched_deliver_fails url source hrefused.1 hrefused.2
    obtain ⟨rfl, rfl⟩ := EStateM.Result.error.inj (hdeliver.symm.trans hfails)
    refine .inr ⟨before, diagnostic, after, hsplit, hrefused.1, ?_, host', ?_⟩
    · exact hcount.symm.trans hrefused.2
    · rw [hrun]
      simp [h.sink_of_channel_eq hrefused.1]

/-! ## Compilations -/

/-- A diagnostic on the channel is a call of the logger, and no other diagnostic is one. -/
theorem loggerCalls_map (h : failing.FailsAt free channel call message calls)
    (diagnostics : List Diagnostic) :
    Transcript.loggerCalls channel (diagnostics.map fun d => (free.logger.sink d, d)) =
      diagnostics.countP (·.channel = channel) := by
  rw [Transcript.loggerCalls, List.countP_map]
  apply List.countP_congr
  intro diagnostic _
  simpa using h.sink_of_channel_eq

end CompileOptions.FailsAt

/-- A logger that fails at one of its calls does not change a compilation that calls it less often.
Otherwise the compilation delivers what it delivers with a logger that does not fail, up to and
including this call, and returns the error of the logger. -/
theorem delivery_failure_cuts {failing free : CompileOptions σ} {channel : Channel} {call : Nat}
    {message : String} {calls : σ → Nat} (h : failing.FailsAt free channel call message calls)
    (url : Option Url) (source : String) (host : σ) (hstart : calls host = 0) :
    let run := compile free.watched url source ⟨host, [], []⟩
    let cut := compile failing.watched url source ⟨host, [], []⟩
    compile free url source host = (run.1, run.2.host) ∧
      compile failing url source host = (cut.1, cut.2.host) ∧
      (Transcript.loggerCalls channel run.2.calls ≤ call → cut = run) ∧
      (call < Transcript.loggerCalls channel run.2.calls → ∃ before diagnostic after,
        run.2.calls = before ++ (.logger, diagnostic) :: after ∧ diagnostic.channel = channel ∧
          Transcript.loggerCalls channel before = call ∧
          cut.2.calls = before ++ [(.logger, diagnostic)] ∧
          cut.1 = .error (.report (.callback channel message))) := by
  intro run cut
  obtain ⟨script, _, hscript⟩ := exists_script url source free.includeContext
  have hrun : run = script.outcome (free.watched.setting url source) ⟨host, [], []⟩ :=
    hscript.compile_eq free.watched rfl _
  have hcut : cut = script.outcome (failing.watched.setting url source) ⟨host, [], []⟩ :=
    hscript.compile_eq failing.watched h.includeContext_eq _
  have hrecords : (free.watched.setting url source).Records free.logger.sink fun _ => [] :=
    free.records_watched h.neverFails url source
  obtain ⟨host', houtcome⟩ := Script.outcome_of_records hrecords
    (fun t => (h.uncancelled t.host).2) script host
  have hcalls : run.2.calls =
      (Step.reported script.steps).map fun d => (free.logger.sink d, d) := by
    rw [hrun, houtcome]
  refine ⟨compile_watched free url source ⟨host, [], []⟩,
    compile_watched failing url source ⟨host, [], []⟩, ?_⟩
  rw [hcalls, h.loggerCalls_map]
  have hsteps := h.runAll url source script.steps ⟨host, [], []⟩ (hstart ▸ Nat.zero_le call)
  dsimp only at hsteps
  rw [hstart, Nat.zero_add] at hsteps
  obtain ⟨hcount, hsame⟩ | ⟨before, diagnostic, after, hsplit, hchannel, hcount, host'', herror⟩ :=
    hsteps
  · refine ⟨fun _ => ?_, fun hlt => absurd hlt (Nat.not_lt.mpr hcount)⟩
    rw [hcut, hrun]
    exact Script.outcome_congr hsame
  · have hsink := h.sink_of_channel_eq hchannel
    have hfailed : cut = (.error (.report (.callback channel message)),
        ⟨host'', (before ++ [diagnostic]).map fun d => (free.logger.sink d, d), []⟩) := by
      rw [hcut, Script.outcome, Script.run, bind_of_error herror, List.nil_append]
      rfl
    refine ⟨?_, fun _ => ⟨before.map fun d => (free.logger.sink d, d), diagnostic,
      after.map fun d => (free.logger.sink d, d), ?_, hchannel, ?_, ?_, ?_⟩⟩
    · intro hle
      rw [hsplit, List.countP_append, List.countP_cons_of_pos (by simpa using hchannel)] at hle
      omega
    · rw [hsplit, List.map_append, List.map_cons, hsink]
    · rw [h.loggerCalls_map]
      omega
    · rw [hfailed, List.map_append, List.map_singleton, hsink]
    · rw [hfailed]

/-! ## The recorder -/

namespace Recorder

variable {setup : Setup}

@[simp] theorem calls_remember (r : Recorder) (diagnostic : Diagnostic) :
    (r.remember diagnostic).calls = r.calls := by
  funext channel
  cases channel <;> rfl

@[simp] theorem calls_countDelivery (r : Recorder) : (r.countDelivery setup).calls = r.calls := by
  funext channel
  cases channel <;> rfl

theorem calls_countCall (r : Recorder) (called channel : Channel) :
    (r.countCall called).calls channel = r.calls channel + if called = channel then 1 else 0 := by
  cases called <;> cases channel <;> rfl

/-- What a call of a slot that records leaves of a recorder. -/
def afterCall (setup : Setup) (diagnostic : Diagnostic) (r : Recorder) : Recorder :=
  ((r.remember diagnostic).countCall diagnostic.channel).countDelivery setup

theorem calls_afterCall (diagnostic : Diagnostic) (channel : Channel) (r : Recorder) :
    (r.afterCall setup diagnostic).calls channel =
      r.calls channel + if diagnostic.channel = channel then 1 else 0 := by
  rw [afterCall, calls_countDelivery, calls_countCall, calls_remember]

theorem Slot.act_record (diagnostic : Diagnostic) (r : Recorder) :
    Slot.record.act setup diagnostic r = .ok () (r.afterCall setup diagnostic) := rfl

theorem Slot.act_recordAndFail (call : Nat) (message : String) (diagnostic : Diagnostic)
    (r : Recorder) : (Slot.recordAndFail call message).act setup diagnostic r =
      if r.calls diagnostic.channel = call then .error message (r.afterCall setup diagnostic)
      else .ok () (r.afterCall setup diagnostic) := by
  change (if r.calls diagnostic.channel = call then throw message else pure () :
    HostM String Recorder Unit) (r.afterCall setup diagnostic) = _
  split <;> rfl

end Recorder

/-- A recorder with a slot for each channel that has one, and a stream for the other diagnostics. -/
def CompileOptions.recording (setup : Recorder.Setup) (slots : Channel → Option Recorder.Slot) :
    CompileOptions Recorder where
  logger := Recorder.logger setup (slots .warn) (slots .debug)
  fallback := (Recorder.stream setup).channel

namespace CompileOptions

variable {setup : Recorder.Setup} {slots : Channel → Option Recorder.Slot}

theorem recording_action? (diagnostic : Diagnostic) :
    (recording setup slots).logger.action? diagnostic =
      (slots diagnostic.channel).map fun slot => slot.act setup diagnostic := by
  cases diagnostic with
  | warn => exact Option.map_map ..
  | debug => exact Option.map_map ..

theorem recording_takes (channel : Channel) :
    (recording setup slots).logger.takes channel = (slots channel).isSome := by
  cases channel <;> simp [recording, Recorder.logger, Logger.takes]

theorem recording_neverFails (hcapacity : setup.capacity = none)
    (hflush : setup.refusesFlush = false)
    (hslots : ∀ channel, (slots channel).all Recorder.Slot.isSafe = true) :
    (recording setup slots).NeverFails :=
  ⟨Recorder.logger_neverFails (hslots .warn) (hslots .debug),
    Recorder.channel_neverFails hcapacity hflush⟩

theorem recording_calls_deliver (hcapacity : setup.capacity = none)
    (hflush : setup.refusesFlush = false)
    (hslots : ∀ channel, (slots channel).all Recorder.Slot.isSafe = true) {channel : Channel}
    (hrecord : slots channel = some .record) {diagnostic : Diagnostic} {r r' : Recorder}
    (h : (recording setup slots).dispatcher.deliver diagnostic r = .ok () r') :
    r'.calls channel = r.calls channel + if diagnostic.channel = channel then 1 else 0 := by
  simp only [Dispatcher.deliver, dispatcher, recording_action?] at h
  cases hslot : slots diagnostic.channel with
  | none =>
    have hother : diagnostic.channel ≠ channel := by
      rintro rfl
      rw [hrecord] at hslot
      contradiction
    have hrun := Recorder.channel_apply hcapacity hflush diagnostic r
    simp only [hslot, Option.map_none, recording, EStateM.adaptExcept, hrun] at h
    obtain rfl := (EStateM.Result.ok.inj h).2
    rw [if_neg hother, Recorder.calls_countDelivery]
    rfl
  | some slot =>
    simp only [hslot, Option.map_some, EStateM.adaptExcept] at h
    cases slot with
    | ignore =>
      have hother : diagnostic.channel ≠ channel := by
        rintro rfl
        rw [hrecord] at hslot
        contradiction
      obtain rfl := (EStateM.Result.ok.inj h).2
      rw [if_neg hother, Nat.add_zero]
    | record =>
      obtain rfl := (EStateM.Result.ok.inj h).2
      exact Recorder.calls_afterCall diagnostic channel r
    | recordAndFail =>
      have hsafe := hslots diagnostic.channel
      rw [hslot] at hsafe
      contradiction

/-- A recorder whose slot fails at a call, next to one whose slot does not. -/
theorem recording_failsAt (hcapacity : setup.capacity = none) (hflush : setup.refusesFlush = false)
    (hslots : ∀ channel, (slots channel).all Recorder.Slot.isSafe = true) {channel : Channel}
    (hrecord : slots channel = some .record) (call : Nat) (message : String) :
    let failing := Function.update slots channel (some (.recordAndFail call message))
    (recording setup failing).FailsAt (recording setup slots) channel call message
      (Recorder.calls · channel) where
  neverFails := recording_neverFails hcapacity hflush hslots
  uncancelled _ := ⟨rfl, rfl⟩
  meanwhile_eq := rfl
  calls_meanwhile _ := rfl
  includeContext_eq := rfl
  takes := by
    rw [recording_takes, hrecord]
    rfl
  takes_eq := by
    funext other
    rw [recording_takes, recording_takes]
    by_cases h : other = channel
    · rw [h, Function.update_self, hrecord]
      rfl
    · rw [Function.update_of_ne h]
  calls_deliver _ _ _ := recording_calls_deliver hcapacity hflush hslots hrecord
  deliver_eq diagnostic r hcall := by
    simp only [Dispatcher.deliver, dispatcher, recording_action?]
    by_cases h : diagnostic.channel = channel
    · rw [h, Function.update_self, hrecord]
      simp only [Option.map_some, EStateM.adaptExcept, Recorder.Slot.act_record,
        Recorder.Slot.act_recordAndFail, h, if_neg (Nat.ne_of_lt (hcall h))]
    · rw [Function.update_of_ne h]
      rfl
  fails diagnostic r hchannel hcall := by
    refine ⟨(Recorder.Slot.recordAndFail call message).act setup diagnostic,
      r.afterCall setup diagnostic, ?_, ?_⟩
    · rw [recording_action?, hchannel, Function.update_self, Option.map_some]
    · rw [Recorder.Slot.act_recordAndFail, hchannel, if_pos hcall]

end CompileOptions

/-- The only message of a text reaches a recorder whose slot fails at its first call, and the
compilation ends there. -/
theorem delivery_failure_cuts_debug :
    let slots : Channel → Option Recorder.Slot := fun _ => some .record
    let free := CompileOptions.recording {} slots
    let failing := CompileOptions.recording {}
      (Function.update slots .debug (some (.recordAndFail 0 "full")))
    let run := compile free.watched none "@debug #;" ⟨{}, [], []⟩
    let cut := compile failing.watched none "@debug #;" ⟨{}, [], []⟩
    failing.FailsAt free .debug 0 "full" (Recorder.calls · .debug) ∧
      Recorder.calls {} .debug = 0 ∧
      ∃ span, run.2.calls = [(.logger, .debug "#" ⟨span⟩)] ∧
        cut.2.calls = [(.logger, .debug "#" ⟨span⟩)] ∧
        cut.1 = .error (.report (.callback .debug "full")) := by
  intro slots free failing run cut
  have h : failing.FailsAt free .debug 0 "full" (Recorder.calls · .debug) :=
    CompileOptions.recording_failsAt rfl rfl (fun _ => rfl) rfl 0 "full"
  let message := (Message.hash none false).diagnostic
  obtain ⟨host, hdeliver, _⟩ := h.exists_deliver none "@debug #;" message ⟨{}, [], []⟩
  have hrun : run = (.ok "", ⟨host, [(.logger, message)], []⟩) :=
    compile_debug_hash (fun _ => rfl) hdeliver
  obtain ⟨_, _, _, hcut⟩ := delivery_failure_cuts h none "@debug #;" {} rfl
  have hcount : 0 < Transcript.loggerCalls .debug run.2.calls := by
    rw [hrun]
    exact Nat.zero_lt_one
  obtain ⟨before, last, after, hcalls, _, _, hcut, herror⟩ := hcut hcount
  refine ⟨h, rfl, (Message.hash none false).span, congrArg (·.2.calls) hrun, ?_, herror⟩
  have hsingle : before ++ (.logger, last) :: after = [(.logger, message)] :=
    hcalls.symm.trans (congrArg (·.2.calls) hrun)
  obtain ⟨rfl, hlast⟩ | ⟨_, hlast⟩ := List.append_eq_singleton_iff.mp hsingle
  · rw [hcut, (List.cons.inj hlast).1]
    rfl
  · exact absurd hlast (List.cons_ne_nil _ _)

end Stylesheet
