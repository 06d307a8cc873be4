import Stylesheet.Compile
import Stylesheet.Report.Recorder

/-!
# Transcripts

A transcript is a host together with a record of the diagnostics it was handed, of the place that
took each of them, and of the bytes written to its stream. Every host can be watched in this way,
and acts on the side of its own state as it does unwatched (`Dispatcher.deliver_watched`).
-/

namespace Stylesheet

/-- The places to which a diagnostic can go. -/
inductive Sink where
  | logger
  | fallback
deriving DecidableEq, Repr

structure Transcript (σ : Type) where
  host : σ
  /-- What was handed over so far, and to whom. A call is on record before it can fail. -/
  calls : List (Sink × Diagnostic) := []
  /-- The bytes that the stream of the host was asked to take so far. -/
  written : List UInt8 := []

variable {σ : Type}

namespace Transcript

/-- Lets the host act, with nothing to record. -/
def forward (act : HostM ε σ α) : HostM ε (Transcript σ) α := fun t =>
  match act t.host with
  | .ok a host => .ok a { t with host := host }
  | .error error host => .error error { t with host := host }

/-- A transcript with one more call. -/
def note (sink : Sink) (diagnostic : Diagnostic) (t : Transcript σ) : Transcript σ :=
  { t with calls := t.calls ++ [(sink, diagnostic)] }

/-- A transcript with more bytes written. -/
def noteBytes (bytes : List UInt8) (t : Transcript σ) : Transcript σ :=
  { t with written := t.written ++ bytes }

@[simp] theorem host_note (sink : Sink) (diagnostic : Diagnostic) (t : Transcript σ) :
    (t.note sink diagnostic).host = t.host := rfl

@[simp] theorem calls_note (sink : Sink) (diagnostic : Diagnostic) (t : Transcript σ) :
    (t.note sink diagnostic).calls = t.calls ++ [(sink, diagnostic)] := rfl

@[simp] theorem written_note (sink : Sink) (diagnostic : Diagnostic) (t : Transcript σ) :
    (t.note sink diagnostic).written = t.written := rfl

/-- The diagnostics that were handed over, to whomever. -/
def diagnostics (t : Transcript σ) : List Diagnostic := t.calls.map Prod.snd

end Transcript

/-! ## Watched hosts -/

open Transcript

/-- A logger whose calls are recorded. -/
def Logger.watched (logger : Logger σ) : Logger (Transcript σ) where
  onWarn := logger.onWarn.map fun act message options t =>
    forward (act message options) (t.note .logger (.warn message options))
  onDebug := logger.onDebug.map fun act message options t =>
    forward (act message options) (t.note .logger (.debug message options))

/-- A default channel whose calls are recorded. -/
def DefaultChannel.noted (channel : DefaultChannel (Transcript σ)) :
    DefaultChannel (Transcript σ) := fun diagnostic t =>
  channel diagnostic (t.note .fallback diagnostic)

/-- The default channel of a host, whose calls are recorded. -/
def DefaultChannel.watched (channel : DefaultChannel σ) : DefaultChannel (Transcript σ) :=
  DefaultChannel.noted fun diagnostic => forward (channel diagnostic)

/-- A stream whose bytes are recorded. -/
def ByteStream.watched (stream : ByteStream σ) : ByteStream (Transcript σ) where
  write bytes t := forward (stream.write bytes) (t.noteBytes bytes)
  flush := forward stream.flush

def Dispatcher.watched (dispatcher : Dispatcher σ) : Dispatcher (Transcript σ) where
  logger := dispatcher.logger.watched
  fallback := DefaultChannel.watched dispatcher.fallback

/-- What a host brings to a compilation, watched. -/
def CompileOptions.watched (options : CompileOptions σ) : CompileOptions (Transcript σ) where
  logger := options.logger.watched
  fallback := DefaultChannel.watched options.fallback
  includeContext := options.includeContext
  isCancelled t := options.isCancelled t.host
  meanwhile t := { t with host := options.meanwhile t.host }

/-! ## What a watched host does -/

/-- Where a logger sends a diagnostic. -/
def Logger.sink (logger : Logger σ) (diagnostic : Diagnostic) : Sink :=
  if logger.takes diagnostic.channel then .logger else .fallback

theorem Logger.action?_watched (logger : Logger σ) (diagnostic : Diagnostic) :
    logger.watched.action? diagnostic = (logger.action? diagnostic).map fun act t =>
      forward act (t.note .logger diagnostic) := by
  cases diagnostic with
  | warn =>
    rw [action?, action?, watched]
    cases logger.onWarn <;> rfl
  | debug =>
    rw [action?, action?, watched]
    cases logger.onDebug <;> rfl

/-- Renaming the error of an action commutes with forwarding it. -/
theorem Transcript.forward_adaptExcept {ε ε' α : Type} (f : ε → ε') (act : HostM ε σ α)
    (t : Transcript σ) : (forward act).adaptExcept f t = forward (act.adaptExcept f) t := by
  simp only [EStateM.adaptExcept, forward]
  cases act t.host <;> rfl

theorem Logger.action?_eq_none_iff (logger : Logger σ) (diagnostic : Diagnostic) :
    logger.action? diagnostic = none ↔ logger.takes diagnostic.channel = false := by
  rw [← isSome_action?]
  cases logger.action? diagnostic <;> simp

/-- A watched host records a diagnostic with its place and does with it what it does unwatched. -/
theorem Dispatcher.deliver_watched (dispatcher : Dispatcher σ) (diagnostic : Diagnostic)
    (t : Transcript σ) :
    dispatcher.watched.deliver diagnostic t =
      forward (dispatcher.deliver diagnostic)
        (t.note (dispatcher.logger.sink diagnostic) diagnostic) := by
  have haction := Logger.action?_watched dispatcher.logger diagnostic
  cases h : dispatcher.logger.action? diagnostic with
  | none =>
    have hsink : dispatcher.logger.sink diagnostic = .fallback := by
      rw [Logger.sink, (Logger.action?_eq_none_iff _ _).mp h]
      rfl
    rw [h] at haction
    simp only [deliver, watched, haction, h, Option.map_none, hsink]
    exact forward_adaptExcept _ _ _
  | some act =>
    have hsink : dispatcher.logger.sink diagnostic = .logger := by
      rw [Logger.sink, ← Logger.isSome_action?, h]
      rfl
    rw [h] at haction
    simp only [deliver, watched, haction, h, Option.map_some, hsink]
    exact forward_adaptExcept _ _ _

/-! ## Hosts that never fail -/

/-- An action that succeeds in every state. -/
def HostM.NeverFails (act : HostM ε σ Unit) : Prop :=
  ∀ host, ∃ host', act host = .ok () host'

structure Logger.NeverFails (logger : Logger σ) : Prop where
  warn : ∀ act, logger.onWarn = some act → ∀ message options, HostM.NeverFails (act message options)
  debug : ∀ act, logger.onDebug = some act →
    ∀ message options, HostM.NeverFails (act message options)

def DefaultChannel.NeverFails (channel : DefaultChannel σ) : Prop :=
  ∀ diagnostic, HostM.NeverFails (channel diagnostic)

/-- The sinks that a host brings to a compilation never fail. -/
structure CompileOptions.NeverFails (options : CompileOptions σ) : Prop where
  logger : options.logger.NeverFails
  fallback : DefaultChannel.NeverFails options.fallback

theorem Logger.NeverFails.action {logger : Logger σ} (h : logger.NeverFails)
    {diagnostic : Diagnostic} {act : HostM String σ Unit}
    (hact : logger.action? diagnostic = some act) : HostM.NeverFails act := by
  cases diagnostic with
  | warn message options =>
    obtain ⟨act', hsome, rfl⟩ := Option.map_eq_some_iff.mp hact
    exact h.warn act' hsome message options
  | debug message options =>
    obtain ⟨act', hsome, rfl⟩ := Option.map_eq_some_iff.mp hact
    exact h.debug act' hsome message options

theorem Dispatcher.deliver_neverFails {dispatcher : Dispatcher σ}
    (hlogger : dispatcher.logger.NeverFails)
    (hfallback : DefaultChannel.NeverFails dispatcher.fallback) (diagnostic : Diagnostic) :
    HostM.NeverFails (dispatcher.deliver diagnostic) := by
  intro host
  cases h : dispatcher.logger.action? diagnostic with
  | none =>
    obtain ⟨host', hok⟩ := hfallback diagnostic host
    exact ⟨host', by simp [deliver, h, EStateM.adaptExcept, hok]⟩
  | some act =>
    obtain ⟨host', hok⟩ := hlogger.action h host
    exact ⟨host', by simp [deliver, h, EStateM.adaptExcept, hok]⟩

/-- A stream takes the text of a diagnostic if its channel never fails. -/
theorem ByteStream.exists_write {stream : ByteStream σ}
    (h : DefaultChannel.NeverFails stream.channel) (diagnostic : Diagnostic) (host : σ) :
    ∃ host₁ host₂, stream.write (Text.Utf8.encode diagnostic.render) host = .ok () host₁ ∧
      stream.flush host₁ = .ok () host₂ := by
  obtain ⟨host₂, hchannel⟩ := h diagnostic host
  simp only [ByteStream.channel, bind, EStateM.bind] at hchannel
  cases hwrite : stream.write (Text.Utf8.encode diagnostic.render) host with
  | ok _ host₁ =>
    rw [hwrite] at hchannel
    exact ⟨host₁, host₂, rfl, hchannel⟩
  | error error host₁ =>
    rw [hwrite] at hchannel
    contradiction

/-! ## The recorder -/

namespace Recorder

variable {setup : Setup}

/-- Whether the action of a slot never fails. -/
def Slot.isSafe : Slot → Bool
  | .ignore | .record => true
  | .recordAndFail _ _ => false

theorem Slot.act_neverFails {slot : Slot} (h : slot.isSafe = true) (diagnostic : Diagnostic) :
    HostM.NeverFails (slot.act setup diagnostic) := by
  intro recorder
  cases slot with
  | ignore => exact ⟨_, rfl⟩
  | record => exact ⟨_, rfl⟩
  | recordAndFail => contradiction

theorem logger_neverFails {warn debug : Option Slot} (hwarn : warn.all Slot.isSafe = true)
    (hdebug : debug.all Slot.isSafe = true) : (logger setup warn debug).NeverFails := by
  refine ⟨?_, ?_⟩
  · intro act hact message options
    obtain ⟨slot, rfl, rfl⟩ := Option.map_eq_some_iff.mp hact
    exact Slot.act_neverFails hwarn _
  · intro act hact message options
    obtain ⟨slot, rfl, rfl⟩ := Option.map_eq_some_iff.mp hact
    exact Slot.act_neverFails hdebug _

/-- A stream with room for everything takes a diagnostic and counts it. -/
theorem channel_apply (hcapacity : setup.capacity = none) (hflush : setup.refusesFlush = false)
    (diagnostic : Diagnostic) (recorder : Recorder) :
    (stream setup).channel diagnostic recorder =
      .ok () (Recorder.countDelivery setup { recorder with
        written := recorder.written ++ Text.Utf8.encode diagnostic.render }) := by
  let bytes := Text.Utf8.encode diagnostic.render
  let after : Recorder := { recorder with written := recorder.written ++ bytes }
  let room := setup.capacity.elim bytes.length (· - recorder.written.size)
  have hroom : room = bytes.length := by
    simp only [room, hcapacity]
    rfl
  have hwrite : (stream setup).write bytes recorder = .ok () after := by
    change (if room < bytes.length then throw (.other "broken pipe") else pure () :
      HostM IoError Recorder Unit)
        { recorder with written := recorder.written ++ bytes.take room } = _
    rw [hroom, if_neg (Nat.lt_irrefl _), List.take_length]
    rfl
  have hlast : (stream setup).flush after = .ok () (after.countDelivery setup) := by
    simp only [stream, hflush]
    rfl
  simp only [ByteStream.channel, bind, EStateM.bind]
  rw [hwrite]
  exact hlast

theorem channel_neverFails (hcapacity : setup.capacity = none)
    (hflush : setup.refusesFlush = false) :
    DefaultChannel.NeverFails (stream setup).channel := fun diagnostic recorder =>
  ⟨_, channel_apply hcapacity hflush diagnostic recorder⟩

end Recorder

end Stylesheet
