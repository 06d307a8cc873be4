import Stylesheet.Proofs.Compilation.Messages
import Stylesheet.Proofs.Compilation.Watching

/-!
# Routing

Which diagnostics a compilation produces and what it comes to does not depend on who takes them.
Each diagnostic has one place, and a stream receives the text of those that no logger takes
(`routing_independence`).
-/

namespace Stylesheet

variable {σ τ : Type}

/-- What a host brings whose default channel is a stream, watched down to the bytes of it. -/
def CompileOptions.streamed (options : CompileOptions σ) (stream : ByteStream σ) :
    CompileOptions (Transcript σ) :=
  { options.watched with fallback := DefaultChannel.noted stream.watched.channel }

theorem compile_streamed {options : CompileOptions σ} {stream : ByteStream σ}
    (hstream : options.fallback = stream.channel) (url : Option Url) (source : String)
    (t : Transcript σ) :
    let run := compile (options.streamed stream) url source t
    compile options url source t.host = (run.1, run.2.host) := by
  apply compile_of_watches
  · rw [hstream]
    apply Dispatcher.watches_of_fallback
    intro diagnostic
    let encoded := Text.Utf8.encode diagnostic.render
    have hwrite : Watches (stream.watched.write encoded) (stream.write encoded) :=
      (Watches.forward (stream.write encoded)).note fun _ => rfl
    have hchannel : Watches (stream.watched.channel diagnostic) (stream.channel diagnostic) :=
      hwrite.bind fun _ => Watches.forward stream.flush
    exact hchannel.note fun _ => rfl
  · rfl
  · intro _
    rfl
  · intro _
    rfl

/-- The bytes of the diagnostics that a logger leaves to a stream, in order. -/
theorem Logger.flatMap_leftover (logger : Logger σ) (diagnostics : List Diagnostic) :
    diagnostics.flatMap logger.leftover =
      (diagnostics.filter fun diagnostic => !logger.takes diagnostic.channel).flatMap
        fun diagnostic => Text.Utf8.encode diagnostic.render := by
  induction diagnostics with
  | nil => rfl
  | cons diagnostic diagnostics ih =>
    rw [List.flatMap_cons, ih, leftover]
    cases h : logger.takes diagnostic.channel <;> simp [h]

/-- Whether a host is handed diagnostics in a compilation, these and no others, in order, each once
and at its one place. If the default channel is a stream, it receives the text of those without a
place in the logger, in order. The host is watched, which does not change the compilation. -/
structure CompileOptions.Routes (options : CompileOptions σ) (url : Option Url) (source : String)
    (host : σ) (diagnostics : List Diagnostic) : Prop where
  calls_eq :
    let run := compile options.watched url source ⟨host, [], []⟩
    compile options url source host = (run.1, run.2.host) ∧
      run.2.calls = diagnostics.map fun diagnostic =>
        (if options.logger.takes diagnostic.channel then .logger else .fallback, diagnostic)
  written_eq : ∀ stream : ByteStream σ, options.fallback = stream.channel →
    let run := compile (options.streamed stream) url source ⟨host, [], []⟩
    compile options url source host = (run.1, run.2.host) ∧
      run.2.written =
        (diagnostics.filter fun diagnostic => !options.logger.takes diagnostic.channel).flatMap
          fun diagnostic => Text.Utf8.encode diagnostic.render

/-- A script is run to its end by a host that neither fails nor cancels, and what it reports is
routed. -/
theorem Script.routes {options : CompileOptions σ} (hoptions : options.NeverFails)
    (hfree : ∀ host, options.isCancelled host = false) {url : Option Url} {source : String}
    {script : Script String} (hscript : script.Compiles url source options.includeContext)
    (host : σ) :
    (compile options url source host).1 = script.result ∧
      options.Routes url source host (Step.reported script.steps) := by
  obtain ⟨host', houtcome⟩ := outcome_of_records (options.records_watched hoptions url source)
    (fun t => hfree t.host) script host
  rw [← hscript.compile_eq options.watched rfl] at houtcome
  have hwatched := compile_watched options url source ⟨host, [], []⟩
  refine ⟨?_, ⟨hwatched, ?_⟩, ?_⟩
  · rw [hwatched, houtcome]
  · rw [houtcome]
    rfl
  · intro stream hstream
    have hdispatch : ((options.streamed stream).setting url source).dispatch =
        (Dispatcher.streamed options.logger stream).deliver := rfl
    obtain ⟨host', houtcome⟩ := outcome_of_records
      (Setting.records_of_streamed hoptions.logger (hstream ▸ hoptions.fallback) hdispatch
        fun _ => ⟨_, rfl⟩) (fun t => hfree t.host) script host
    refine ⟨compile_streamed hstream url source ⟨host, [], []⟩, ?_⟩
    rw [hscript.compile_eq (options.streamed stream) rfl, houtcome]
    exact Logger.flatMap_leftover options.logger _

/-- Two hosts whose sinks never fail and that do not cancel see the same compilation, whatever each
of them takes itself and leaves to its default channel: it comes to the same, and each of them is
handed what the compilation reports to one who listens. -/
theorem routing_independence (options₁ : CompileOptions σ) (options₂ : CompileOptions τ)
    (hoptions₁ : options₁.NeverFails) (hoptions₂ : options₂.NeverFails)
    (hfree₁ : ∀ host, options₁.isCancelled host = false)
    (hfree₂ : ∀ host, options₂.isCancelled host = false)
    (hcontext : options₁.includeContext = options₂.includeContext) (url : Option Url)
    (source : String) (host₁ : σ) (host₂ : τ) :
    let diagnostics := reports url source options₁.includeContext
    (compile options₁ url source host₁).1 = (compile options₂ url source host₂).1 ∧
      options₁.Routes url source host₁ diagnostics ∧
      options₂.Routes url source host₂ diagnostics := by
  intro diagnostics
  obtain ⟨script, _, hscript⟩ := exists_script url source options₁.includeContext
  obtain ⟨hresult₁, hroutes₁⟩ := Script.routes hoptions₁ hfree₁ hscript host₁
  obtain ⟨hresult₂, hroutes₂⟩ := Script.routes hoptions₂ hfree₂ (hcontext ▸ hscript) host₂
  rw [← hscript.reports_eq] at hroutes₁ hroutes₂
  exact ⟨hresult₁.trans hresult₂.symm, hroutes₁, hroutes₂⟩

/-- A recorder that takes debug messages, next to one that leaves them to its stream. The one
message of the text goes to the first one's logger and not to its stream, and it is written to the
stream of the other. -/
theorem routing_independence_recorder :
    let stream := Recorder.stream {}
    let taking : CompileOptions Recorder :=
      { logger := Recorder.logger {} none (some .record), fallback := stream.channel }
    let leaving : CompileOptions Recorder :=
      { logger := Recorder.logger {} (some .ignore) none, fallback := stream.channel }
    let message := (Message.hash none false).diagnostic
    let taken := compile (taking.streamed stream) none "@debug #;" ⟨{}, [], []⟩
    let left := compile (leaving.streamed stream) none "@debug #;" ⟨{}, [], []⟩
    taking.NeverFails ∧ leaving.NeverFails ∧
      (compile taking none "@debug #;" {}).1 = (compile leaving none "@debug #;" {}).1 ∧
      reports none "@debug #;" false = [message] ∧
      (compile taking.watched none "@debug #;" ⟨{}, [], []⟩).2.calls = [(.logger, message)] ∧
      (compile leaving.watched none "@debug #;" ⟨{}, [], []⟩).2.calls = [(.fallback, message)] ∧
      taken.2.written = [] ∧ left.2.written = Text.Utf8.encode "- 1:1 DEBUG: #\n" := by
  intro stream taking leaving message taken left
  have hchannel : DefaultChannel.NeverFails stream.channel := Recorder.channel_neverFails rfl rfl
  have htaking : taking.NeverFails := ⟨Recorder.logger_neverFails rfl rfl, hchannel⟩
  have hleaving : leaving.NeverFails := ⟨Recorder.logger_neverFails rfl rfl, hchannel⟩
  have hreports : reports none "@debug #;" false = [message] := reports_debug_hash none false
  have hrender : message.render = "- 1:1 DEBUG: #\n" := by decide +kernel
  obtain ⟨hresult, htakes, hleaves⟩ := routing_independence taking leaving htaking hleaving
    (fun _ => rfl) (fun _ => rfl) rfl none "@debug #;" {} {}
  rw [hreports] at htakes hleaves
  refine ⟨htaking, hleaving, hresult, hreports, htakes.calls_eq.2, hleaves.calls_eq.2,
    (htakes.written_eq stream rfl).2, ?_⟩
  rw [(hleaves.written_eq stream rfl).2, ← hrender]
  exact List.append_nil _

end Stylesheet
