import Stylesheet.Proofs.Compilation.DeliveryFailure
import Stylesheet.Proofs.Compilation.PassedStack
import Stylesheet.Proofs.Compilation.Routing
import Stylesheet.Proofs.Source.Offsets

/-!
# Asking for context

Whether spans carry the lines around them changes nothing but the spans. A host that does not look
at the context is handed the same diagnostics in the same order, and the compilation comes to the
same result (`context_independence`).
-/

namespace Stylesheet

variable {σ : Type} {same : σ → σ → Prop}

/-! ## Hosts that do not look at context -/

/-- No sink of a host looks at the context of a span, and neither does its decision to cancel nor
what becomes of it meanwhile. What may differ between two states of the host, since such spans are
kept in them, is said by `same`. -/
structure CompileOptions.IgnoresContext (options : CompileOptions σ) (same : σ → σ → Prop) :
    Prop where
  isCancelled_eq {host host' : σ} (h : same host host') :
    options.isCancelled host' = options.isCancelled host
  meanwhile {host host' : σ} (h : same host host') :
    same (options.meanwhile host) (options.meanwhile host')
  deliver {host host' : σ} (diagnostic : Diagnostic) (h : same host host') :
    SameOutcome same (options.dispatcher.deliver diagnostic host)
      (options.dispatcher.deliver (diagnostic.mapSpan Span.withoutContext) host')

/-- The same host, asking for context or not. -/
def CompileOptions.withContext (options : CompileOptions σ) (includeContext : Bool) :
    CompileOptions σ :=
  { options with includeContext := includeContext }

/-- Two transcripts are the same but for context. -/
structure Transcript.SameButContext (same : σ → σ → Prop) (t t' : Transcript σ) : Prop where
  host : same t.host t'.host
  calls_eq : t'.calls = t.calls.map fun call => (call.1, call.2.mapSpan Span.withoutContext)
  written_eq : t'.written = t.written

/-! ## Spans with and without context -/

theorem Span.toString_withoutContext (span : Span) :
    toString span.withoutContext = toString span := rfl

/-- A range has an image, with context where it is asked for, or it has none either way. -/
theorem CompileOptions.span_withContext (options : CompileOptions σ) (url : Option Url)
    (source : String) (range : Range) :
    (∃ front text rest, ∀ includeContext,
      ((options.withContext includeContext).setting url source).span range =
        .ok (Span.image front text rest url includeContext)) ∨
      ∃ fault, ∀ includeContext,
        ((options.withContext includeContext).setting url source).span range =
          .error (.location fault) := by
  simp only [Setting.span, setting, withContext]
  cases hstart : (LineIndex.ofString source).unitOffset range.start with
  | error fault => exact .inr ⟨fault, fun _ => rfl⟩
  | ok start =>
    cases hstop : (LineIndex.ofString source).unitOffset range.stop with
    | error fault => exact .inr ⟨fault, fun _ => rfl⟩
    | ok stop =>
      simp only [bind, Except.bind]
      rcases LineIndex.span_image_or_reversed hstart hstop with
        ⟨front, text, rest, himage⟩ | ⟨fault, hfault⟩
      · refine .inl ⟨front, text, rest, fun includeContext => ?_⟩
        rw [himage url includeContext]
        rfl
      · refine .inr ⟨fault, fun includeContext => ?_⟩
        rw [hfault url includeContext]
        rfl

/-- Spans carry context exactly if they are asked to. -/
theorem CompileOptions.isSome_context {options : CompileOptions σ} {url : Option Url}
    {source : String} {range : Range} {span : Span}
    (h : (options.setting url source).span range = .ok span) :
    span.context.isSome = options.includeContext := by
  rcases options.span_withContext url source range with
    ⟨front, text, rest, himage⟩ | ⟨fault, hfault⟩
  · obtain rfl := Except.ok.inj (h.symm.trans (himage options.includeContext))
    rw [Span.image]
    cases options.includeContext <;> rfl
  · cases h.symm.trans (hfault options.includeContext)

/-! ## Watched deliveries -/

theorem Transcript.forward_bind {ε α β : Type} (act : HostM ε σ α) (next : α → HostM ε σ β)
    (t : Transcript σ) :
    (forward act >>= fun a => forward (next a)) t = forward (act >>= next) t := by
  simp only [bind, EStateM.bind, forward]
  cases act t.host <;> rfl

/-- A watched stream has the text of a diagnostic on record, whatever it does with it. -/
theorem ByteStream.channel_watched (stream : ByteStream σ) (diagnostic : Diagnostic)
    (t : Transcript σ) :
    stream.watched.channel diagnostic t = Transcript.forward (stream.channel diagnostic)
      (t.noteBytes (Text.Utf8.encode diagnostic.render)) :=
  Transcript.forward_bind _ (fun _ => stream.flush) _

/-- A host that is watched down to its bytes has each diagnostic on record with its place and the
bytes that it leaves to the stream. -/
theorem Dispatcher.deliver_streamed (logger : Logger σ) (stream : ByteStream σ)
    (diagnostic : Diagnostic) (t : Transcript σ) :
    (streamed logger stream).deliver diagnostic t =
      Transcript.forward (Dispatcher.deliver ⟨logger, stream.channel⟩ diagnostic)
        ((t.note (logger.sink diagnostic) diagnostic).noteBytes (logger.leftover diagnostic)) := by
  rw [deliver, streamed, Logger.action?_watched, Logger.sink, Logger.leftover, deliver]
  cases haction : logger.action? diagnostic with
  | none =>
    have htakes := (Logger.action?_eq_none_iff logger diagnostic).mp haction
    have hchannel : DefaultChannel.noted stream.watched.channel diagnostic t =
        Transcript.forward (stream.channel diagnostic) ((t.note .fallback diagnostic).noteBytes
          (Text.Utf8.encode diagnostic.render)) := stream.channel_watched diagnostic _
    simp only [Option.map_none, htakes, Bool.false_eq_true, if_false]
    rw [← Transcript.forward_adaptExcept, EStateM.adaptExcept, EStateM.adaptExcept, hchannel]
  | some act =>
    have htakes : logger.takes diagnostic.channel = true := by
      rw [← Logger.isSome_action?, haction]
      rfl
    simp only [Option.map_some, htakes, if_true, Transcript.noteBytes, List.append_nil]
    exact Transcript.forward_adaptExcept _ _ _

/-- The setting of a host that is watched, with each diagnostic and its bytes on record. -/
structure Setting.Watching (setting : Setting (Transcript σ)) (options : CompileOptions σ)
    (bytes : Diagnostic → List UInt8) : Prop where
  isCancelled_eq (t : Transcript σ) : setting.isCancelled t = options.isCancelled t.host
  meanwhile_eq (t : Transcript σ) :
    setting.meanwhile t = { t with host := options.meanwhile t.host }
  deliver_eq (diagnostic : Diagnostic) (t : Transcript σ) :
    setting.deliver diagnostic t =
      Transcript.forward ((options.dispatcher.deliver diagnostic).adaptExcept CompileError.report)
        ((t.note (options.logger.sink diagnostic) diagnostic).noteBytes (bytes diagnostic))

theorem CompileOptions.watching_watched (options : CompileOptions σ) (url : Option Url)
    (source : String) : (options.watched.setting url source).Watching options fun _ => [] where
  isCancelled_eq _ := rfl
  meanwhile_eq _ := rfl
  deliver_eq diagnostic t := by
    rw [deliver_watched, Transcript.noteBytes, List.append_nil]

theorem CompileOptions.watching_streamed {options : CompileOptions σ} {stream : ByteStream σ}
    (hstream : options.fallback = stream.channel) (url : Option Url) (source : String) :
    ((options.streamed stream).setting url source).Watching options options.logger.leftover where
  isCancelled_eq _ := rfl
  meanwhile_eq _ := rfl
  deliver_eq diagnostic t := by
    have hsetting : ((options.streamed stream).setting url source).dispatch =
        (Dispatcher.streamed options.logger stream).deliver := rfl
    rw [← Transcript.forward_adaptExcept, Setting.deliver, hsetting, EStateM.adaptExcept,
      EStateM.adaptExcept, Dispatcher.deliver_streamed, dispatcher, hstream]

/-- Whether context is asked for does not matter to the sinks of a host. -/
theorem Setting.Watching.of_withContext {setting : Setting (Transcript σ)}
    {options : CompileOptions σ} {bytes : Diagnostic → List UInt8} {includeContext : Bool}
    (h : setting.Watching (options.withContext includeContext) bytes) :
    setting.Watching options bytes :=
  ⟨h.isCancelled_eq, h.meanwhile_eq, h.deliver_eq⟩

/-! ## Two compilations in step -/

theorem Logger.leftover_mapSpan (logger : Logger σ) (diagnostic : Diagnostic) :
    logger.leftover (diagnostic.mapSpan Span.withoutContext) = logger.leftover diagnostic := by
  rw [leftover, leftover, Diagnostic.channel_mapSpan,
    Diagnostic.render_mapSpan Span.toString_withoutContext]

/-- Watched hosts that do not look at context stay the same but for context. -/
theorem CompileOptions.IgnoresContext.mirrors {options : CompileOptions σ}
    (h : options.IgnoresContext same) {bytes : Diagnostic → List UInt8}
    (hbytes : ∀ d, bytes (d.mapSpan Span.withoutContext) = bytes d)
    {setting setting' : Setting (Transcript σ)} (hwatching : setting.Watching options bytes)
    (hwatching' : setting'.Watching options bytes)
    (hspan : ∀ range, setting'.span range = (setting.span range).map Span.withoutContext) :
    setting.Mirrors Span.withoutContext (Transcript.SameButContext same) setting' where
  toString_eq := Span.toString_withoutContext
  span_eq := hspan
  isCancelled_eq {t t'} ht := by
    rw [hwatching.isCancelled_eq, hwatching'.isCancelled_eq, h.isCancelled_eq ht.host]
  meanwhile {t t'} ht := by
    rw [hwatching.meanwhile_eq, hwatching'.meanwhile_eq]
    exact { ht with host := h.meanwhile ht.host }
  deliver {t t'} diagnostic ht := by
    have hsink : options.logger.sink (diagnostic.mapSpan Span.withoutContext) =
        options.logger.sink diagnostic := by
      rw [Logger.sink, Logger.sink, Diagnostic.channel_mapSpan]
    have hnoted (host host' : σ) (hhost : same host host') : Transcript.SameButContext same
        { (t.note (options.logger.sink diagnostic) diagnostic).noteBytes (bytes diagnostic) with
          host := host }
        { (t'.note (options.logger.sink diagnostic)
            (diagnostic.mapSpan Span.withoutContext)).noteBytes (bytes diagnostic) with
          host := host' } := by
      refine ⟨hhost, ?_, ?_⟩
      · simp [Transcript.noteBytes, ht.calls_eq]
      · simp [Transcript.noteBytes, ht.written_eq]
    have hact := h.deliver diagnostic ht.host
    rw [hwatching.deliver_eq, hwatching'.deliver_eq, hsink, hbytes, Transcript.forward,
      Transcript.forward, EStateM.adaptExcept, EStateM.adaptExcept]
    simp only [Transcript.noteBytes, Transcript.host_note]
    cases hrun : options.dispatcher.deliver diagnostic t.host <;>
      cases hrun' : options.dispatcher.deliver (diagnostic.mapSpan Span.withoutContext) t'.host <;>
        rw [hrun, hrun'] at hact
    · exact ⟨hact.1, hnoted _ _ hact.2⟩
    · contradiction
    · contradiction
    · exact ⟨congrArg CompileError.report hact.1, hnoted _ _ hact.2⟩

/-- Asking for context or not, a watched host sees the same compilation but for context. -/
theorem CompileOptions.IgnoresContext.compile_eq {options : CompileOptions σ}
    (h : options.IgnoresContext same) {bytes : Diagnostic → List UInt8}
    (hbytes : ∀ d, bytes (d.mapSpan Span.withoutContext) = bytes d) {url : Option Url}
    {source : String} {watched watched' : CompileOptions (Transcript σ)}
    (hwatching : (watched.setting url source).Watching options bytes)
    (hwatching' : (watched'.setting url source).Watching options bytes)
    (hcontext : watched.includeContext = true) (hcontext' : watched'.includeContext = false)
    {t t' : Transcript σ} (ht : Transcript.SameButContext same t t') :
    let run := compile watched url source t
    let run' := compile watched' url source t'
    run'.1 = run.1.mapError (CompileError.mapSpan Span.withoutContext) ∧
      Transcript.SameButContext same run.2 run'.2 := by
  have hspan (range : Range) : (watched'.setting url source).span range =
      ((watched.setting url source).span range).map Span.withoutContext := by
    have hspans (context : Bool) : ((options.withContext context).setting url source).span =
        (Setting.listening url source context).span := rfl
    rw [span_setting hcontext, span_setting hcontext', ← hspans true, ← hspans false]
    rcases options.span_withContext url source range with
      ⟨front, text, rest, himage⟩ | ⟨fault, hfault⟩
    · rw [himage, himage]
      rfl
    · rw [hfault, hfault]
      rfl
  simp only [compile_eq_compileUnder watched']
  exact compile_mirrors (h.mirrors hbytes hwatching hwatching' hspan) ht

/-! ## Spans that are shown -/

/-- The place in the stylesheet that a diagnostic is about. -/
def Diagnostic.span? : Diagnostic → Option Span
  | .warn _ options => options.span
  | .debug _ options => some options.span

/-- All spans that a compilation shows to its host, or in its error, are as described. -/
def ShowsOnly (good : Span → Prop) (run : Except CompileError String × Transcript σ) : Prop :=
  (∀ call ∈ run.2.calls, ∀ span, call.2.span? = some span → good span) ∧
    ∀ error span, run.1 = .error error → error.span? = some span → good span

theorem ShowsOnly.mono {good good' : Span → Prop}
    {run : Except CompileError String × Transcript σ} (h : ShowsOnly good run)
    (himp : ∀ span, good span → good' span) : ShowsOnly good' run :=
  ⟨fun call hcall span hplace => himp span (h.1 call hcall span hplace),
    fun error span herror hplace => himp span (h.2 error span herror hplace)⟩

theorem Statement.Says.span?_eq {setting : Setting σ} {machine : Machine σ} {s : Statement}
    {range : Range} {span : Span} {diagnostic : Diagnostic}
    (h : s.Says setting machine range span diagnostic) : diagnostic.span? = some span := by
  cases h <;> rfl

/-- A compilation shows spans of ranges only. -/
theorem compile_showsOnly (options : CompileOptions σ) (url : Option Url) (source : String)
    (host : σ) :
    ShowsOnly (fun span => ∃ range, (options.watched.setting url source).span range = .ok span)
      (compile options.watched url source ⟨host, [], []⟩) := by
  cases hparse : parse source with
  | error fault =>
    rw [compile_of_parse_eq_error options.watched url hparse]
    refine ⟨fun call hcall => by contradiction, fun error span herror hplace => ?_⟩
    obtain rfl := Except.error.inj herror
    rw [parseFailure] at hplace
    cases hspan : (options.watched.setting url source).span fault.range with
    | ok place =>
      rw [hspan] at hplace
      obtain rfl := Option.some.inj hplace
      exact ⟨fault.range, hspan⟩
    | error error =>
      obtain ⟨fault, rfl⟩ := Setting.exists_fault_of_span_eq_error hspan
      rw [hspan] at hplace
      contradiction
  | ok statements =>
    obtain ⟨hcalls, hfaults⟩ := compile_tells options url hparse host
    refine ⟨fun call hcall span hplace => ?_, fun error span herror hplace => ?_⟩
    · obtain ⟨s, machine, range, span', _, hspan, hsays⟩ := hcalls call hcall
      obtain rfl := Option.some.inj (hplace.symm.trans hsays.span?_eq)
      exact ⟨range, hspan⟩
    · cases hfaults error herror with
      | cancelled | tooDeep | report => contradiction
      | within hrange hspan hplace' hkind =>
        obtain rfl := Option.some.inj (hplace.symm.trans hplace')
        exact ⟨_, hspan⟩
      | span hrange hspan =>
        obtain ⟨fault, rfl⟩ := Setting.exists_fault_of_span_eq_error hspan
        contradiction

/-- A host that does not look at context sees the same compilation with context and without: the
same result, the same diagnostics, and the same bytes on its stream. All spans of the first
compilation carry context, and without it they are those of the second one, which carry none. The
hosts are watched, which does not change what they see. -/
theorem context_independence {options : CompileOptions σ} (h : options.IgnoresContext same)
    (url : Option Url) (source : String) {host host' : σ} (hsame : same host host') :
    let asking := options.withContext true
    let leaving := options.withContext false
    let shown := compile asking.watched url source ⟨host, [], []⟩
    let hidden := compile leaving.watched url source ⟨host', [], []⟩
    compile asking url source host = (shown.1, shown.2.host) ∧
      compile leaving url source host' = (hidden.1, hidden.2.host) ∧
      hidden.1 = shown.1.mapError (CompileError.mapSpan Span.withoutContext) ∧
      hidden.1.mapError CompileError.message = shown.1.mapError CompileError.message ∧
      Transcript.SameButContext same shown.2 hidden.2 ∧
      ShowsOnly (·.context.isSome = true) shown ∧ ShowsOnly (·.context = none) hidden ∧
      ∀ stream, options.fallback = stream.channel →
        let shown := compile (asking.streamed stream) url source ⟨host, [], []⟩
        let hidden := compile (leaving.streamed stream) url source ⟨host', [], []⟩
        compile asking url source host = (shown.1, shown.2.host) ∧
          compile leaving url source host' = (hidden.1, hidden.2.host) ∧
          hidden.2.written = shown.2.written := by
  intro asking leaving shown hidden
  have hstart : Transcript.SameButContext same ⟨host, [], []⟩ ⟨host', [], []⟩ := ⟨hsame, rfl, rfl⟩
  have hwatching : (asking.watched.setting url source).Watching options fun _ => [] :=
    (asking.watching_watched url source).of_withContext
  have hwatching' : (leaving.watched.setting url source).Watching options fun _ => [] :=
    (leaving.watching_watched url source).of_withContext
  obtain ⟨hresult, hhosts⟩ := h.compile_eq (fun _ => rfl) hwatching hwatching' rfl rfl hstart
  refine ⟨compile_watched asking url source ⟨host, [], []⟩,
    compile_watched leaving url source ⟨host', [], []⟩, hresult, ?_, hhosts, ?_, ?_, ?_⟩
  · rw [hresult]
    cases shown.1 with
    | ok css => rfl
    | error error =>
      exact congrArg Except.error (error.message_mapSpan Span.toString_withoutContext)
  · apply (compile_showsOnly asking url source host).mono
    intro span hspan
    obtain ⟨range, hspan⟩ := hspan
    exact CompileOptions.isSome_context hspan
  · apply (compile_showsOnly leaving url source host').mono
    intro span hspan
    obtain ⟨range, hspan⟩ := hspan
    have hcontext : span.context.isSome = false := CompileOptions.isSome_context hspan
    exact Option.not_isSome_iff_eq_none.mp (by simp [hcontext])
  · intro stream hstream shown hidden
    have hasking : asking.fallback = stream.channel := hstream
    have hleaving : leaving.fallback = stream.channel := hstream
    have hwatching : ((asking.streamed stream).setting url source).Watching options
        options.logger.leftover :=
      (CompileOptions.watching_streamed hasking url source).of_withContext
    have hwatching' : ((leaving.streamed stream).setting url source).Watching options
        options.logger.leftover :=
      (CompileOptions.watching_streamed hleaving url source).of_withContext
    obtain ⟨_, hhosts⟩ := h.compile_eq options.logger.leftover_mapSpan hwatching hwatching' rfl rfl
      hstart
    exact ⟨compile_streamed hasking url source ⟨host, [], []⟩,
      compile_streamed hleaving url source ⟨host', [], []⟩, hhosts.written_eq⟩

/-! ## The recorder -/

namespace Recorder

variable {setup : Setup} {r r' : Recorder}

/-- Two recorders are the same but for the context in what they remember. -/
def SameButContext (r r' : Recorder) : Prop :=
  r' = { r with events := r.events.map (·.mapSpan Span.withoutContext) }

theorem SameButContext.countDelivery (h : r.SameButContext r') :
    (r.countDelivery setup).SameButContext (r'.countDelivery setup) := by
  subst h
  rfl

theorem SameButContext.afterCall (h : r.SameButContext r') (diagnostic : Diagnostic) :
    (r.afterCall setup diagnostic).SameButContext
      (r'.afterCall setup (diagnostic.mapSpan Span.withoutContext)) := by
  subst h
  cases diagnostic <;>
    simp [SameButContext, Recorder.afterCall, Recorder.countDelivery, countCall, remember,
      Diagnostic.mapSpan, Diagnostic.channel]

theorem write_apply (bytes : List UInt8) (r : Recorder) :
    let room := setup.capacity.elim bytes.length (· - r.written.size)
    let after : Recorder := { r with written := r.written ++ bytes.take room }
    (stream setup).write bytes r =
      if room < bytes.length then .error (.other "broken pipe") after else .ok () after := by
  intro room after
  change (if room < bytes.length then throw (.other "broken pipe") else pure () :
    HostM IoError Recorder Unit) after = _
  split <;> rfl

theorem flush_apply (r : Recorder) :
    (stream setup).flush r =
      if setup.refusesFlush then .error (.other "flush refused") (r.countDelivery setup)
      else .ok () (r.countDelivery setup) := by
  change (if setup.refusesFlush then throw (.other "flush refused") else pure () :
    HostM IoError Recorder Unit) (r.countDelivery setup) = _
  split <;> rfl

theorem SameButContext.channel (h : r.SameButContext r') (diagnostic : Diagnostic) :
    SameOutcome SameButContext ((stream setup).channel diagnostic r)
      ((stream setup).channel (diagnostic.mapSpan Span.withoutContext) r') := by
  have hrender := diagnostic.render_mapSpan Span.toString_withoutContext
  rw [ByteStream.channel, ByteStream.channel, hrender]
  apply Alike.bind
  · rw [write_apply, write_apply, show r' = _ from h]
    dsimp only
    split
    · exact ⟨rfl, rfl⟩
    · exact ⟨rfl, rfl⟩
  · intro _ last last' hlast
    rw [flush_apply, flush_apply]
    split
    · exact ⟨rfl, hlast.countDelivery⟩
    · exact ⟨rfl, hlast.countDelivery⟩

theorem SameButContext.act (h : r.SameButContext r') (slot : Slot) (diagnostic : Diagnostic) :
    SameOutcome SameButContext (slot.act setup diagnostic r)
      (slot.act setup (diagnostic.mapSpan Span.withoutContext) r') := by
  have hcalls : r'.calls = r.calls := by
    rw [show r' = _ from h]
    rfl
  cases slot with
  | ignore => exact ⟨rfl, h⟩
  | record => exact ⟨rfl, h.afterCall diagnostic⟩
  | recordAndFail call message =>
    rw [Slot.act_recordAndFail, Slot.act_recordAndFail, Diagnostic.channel_mapSpan, hcalls]
    split
    · exact ⟨rfl, h.afterCall diagnostic⟩
    · exact ⟨rfl, h.afterCall diagnostic⟩

end Recorder

/-- A recorder does not look at context, whatever its slots do and whenever it fails. -/
theorem CompileOptions.recording_ignoresContext (setup : Recorder.Setup)
    (slots : Channel → Option Recorder.Slot) {isCancelled : Recorder → Bool}
    (hcancelled : ∀ r r' : Recorder, r.SameButContext r' → isCancelled r' = isCancelled r) :
    { recording setup slots with isCancelled := isCancelled }.IgnoresContext
      Recorder.SameButContext where
  isCancelled_eq h := hcancelled _ _ h
  meanwhile h := h
  deliver {r r'} diagnostic h := by
    have haction (d : Diagnostic) :
        { recording setup slots with isCancelled := isCancelled }.dispatcher.logger.action? d =
          (slots d.channel).map fun slot => slot.act setup d := recording_action? d
    rw [Dispatcher.deliver, Dispatcher.deliver, haction, haction, Diagnostic.channel_mapSpan]
    cases slots diagnostic.channel with
    | none => exact (h.channel diagnostic).adaptExcept _
    | some slot => exact (h.act slot diagnostic).adaptExcept _

/-- A recorder takes the only message of a text, which is about a span with context or without. -/
theorem context_independence_recorder :
    let options := CompileOptions.recording {} fun _ => some .record
    let shown := compile (options.withContext true).watched none "@debug #;" ⟨{}, [], []⟩
    let hidden := compile (options.withContext false).watched none "@debug #;" ⟨{}, [], []⟩
    options.IgnoresContext Recorder.SameButContext ∧ Recorder.SameButContext {} {} ∧
      ∃ span, span.context.isSome = true ∧ shown.2.calls = [(.logger, .debug "#" ⟨span⟩)] ∧
        hidden.2.calls = [(.logger, .debug "#" ⟨span.withoutContext⟩)] := by
  intro options shown hidden
  have h : options.IgnoresContext Recorder.SameButContext :=
    CompileOptions.recording_ignoresContext {} (fun _ => some .record) fun _ _ _ => rfl
  let asking := options.withContext true
  let message := (Message.hash none true).diagnostic
  have hnever : options.NeverFails := CompileOptions.recording_neverFails rfl rfl fun _ => rfl
  have hasking : asking.NeverFails := ⟨hnever.logger, hnever.fallback⟩
  obtain ⟨host, hdeliver⟩ :=
    (asking.records_watched hasking none "@debug #;").deliver message ⟨{}, [], []⟩
  have hshown : shown = (.ok "", ⟨host, [(.logger, message)], []⟩) :=
    compile_debug_hash (fun _ => rfl) hdeliver
  have hstart : Recorder.SameButContext {} {} := by simp [Recorder.SameButContext]
  obtain ⟨_, _, _, _, hsame, _⟩ := context_independence h none "@debug #;" hstart
  refine ⟨h, hstart, (Message.hash none true).span, rfl, by rw [hshown]; rfl, ?_⟩
  rw [hsame.calls_eq]
  change shown.2.calls.map _ = _
  rw [hshown]
  rfl

end Stylesheet
