import Stylesheet.Proofs.Compilation.DeliveryFailure
import Stylesheet.Proofs.Report.Buffer

/-!
# Default channels that run out of room

A default channel that writes to a buffer cuts a compilation at the byte for which there is no room:
the buffer is full, nothing is delivered after the diagnostic that holds this byte, and the
compilation returns the error of the buffer (`capacity_cuts`). With room for everything the
compilation is the same as without a limit.
-/

namespace Stylesheet

variable {σ : Type}

/-! ## Hosts with a buffer -/

/-- The logger of a host, next to a buffer that it does not see. -/
def Logger.buffered (logger : Logger σ) : Logger (Buffered σ) where
  onWarn := logger.onWarn.map fun act message options => Buffered.forward (act message options)
  onDebug := logger.onDebug.map fun act message options => Buffered.forward (act message options)

theorem Logger.action?_buffered (logger : Logger σ) (diagnostic : Diagnostic) :
    logger.buffered.action? diagnostic = (logger.action? diagnostic).map Buffered.forward := by
  cases diagnostic with
  | warn =>
    rw [action?, action?, buffered]
    cases logger.onWarn <;> rfl
  | debug =>
    rw [action?, action?, buffered]
    cases logger.onDebug <;> rfl

theorem Logger.sink_buffered (logger : Logger σ) : logger.buffered.sink = logger.sink := by
  have htakes : logger.buffered.takes = logger.takes := by
    funext channel
    cases channel <;> simp [takes, buffered]
  funext diagnostic
  rw [sink, sink, htakes]

namespace CompileOptions

/-- A host whose default channel writes to a buffer. -/
def buffered (logger : Logger σ) (includeContext : Bool) (capacity : Option Nat)
    (error : IoError) : CompileOptions (Buffered σ) where
  logger := logger.buffered
  fallback := (Buffered.stream capacity error).channel
  includeContext := includeContext

variable {logger : Logger σ} (includeContext : Bool) {capacity : Option Nat} (error : IoError)

/-- With room for it, a diagnostic goes to its place, and the buffer takes the bytes that the logger
leaves of it. -/
theorem exists_buffered_deliver (hlogger : logger.NeverFails) (diagnostic : Diagnostic)
    (b : Buffered σ) :
    ∃ host, ∀ capacity,
      (logger.leftover diagnostic).length ≤ b.room capacity (logger.leftover diagnostic) →
        (buffered logger includeContext capacity error).dispatcher.deliver diagnostic b =
          .ok () ⟨host, b.taken ++ logger.leftover diagnostic⟩ := by
  cases haction : logger.action? diagnostic with
  | none =>
    have htakes := (Logger.action?_eq_none_iff logger diagnostic).mp haction
    refine ⟨b.host, fun capacity hfits => ?_⟩
    simp only [Logger.leftover, htakes, Bool.false_eq_true, if_false] at hfits ⊢
    have hchannel : (Buffered.stream capacity error).channel diagnostic b = _ :=
      Buffered.channel_of_fits hfits
    simp [Dispatcher.deliver, dispatcher, buffered, Logger.action?_buffered, haction,
      EStateM.adaptExcept, hchannel]
  | some act =>
    have htakes : logger.takes diagnostic.channel = true := by
      rw [← Logger.isSome_action?, haction]
      rfl
    obtain ⟨host, hact⟩ := hlogger.action haction b.host
    refine ⟨host, fun capacity _ => ?_⟩
    simp [Dispatcher.deliver, dispatcher, buffered, Logger.action?_buffered, haction,
      EStateM.adaptExcept, Buffered.forward, hact, Logger.leftover, htakes]

/-- Without room for all of it, a diagnostic that the logger leaves fails, and the buffer takes what
fits of it. -/
theorem buffered_deliver_of_lacks {diagnostic : Diagnostic} {b : Buffered σ}
    (h : b.room capacity (logger.leftover diagnostic) < (logger.leftover diagnostic).length) :
    logger.sink diagnostic = .fallback ∧
      (buffered logger includeContext capacity error).dispatcher.deliver diagnostic b =
        .error (.fallback diagnostic.channel error)
          ⟨b.host, b.taken ++ (logger.leftover diagnostic).take
            (b.room capacity (logger.leftover diagnostic))⟩ := by
  cases htakes : logger.takes diagnostic.channel with
  | true => simp [Logger.leftover, htakes] at h
  | false =>
    have haction := (Logger.action?_eq_none_iff logger diagnostic).mpr htakes
    simp only [Logger.leftover, htakes, Bool.false_eq_true, if_false] at h ⊢
    have hchannel : (Buffered.stream capacity error).channel diagnostic b = _ :=
      Buffered.channel_of_lacks h
    refine ⟨by simp [Logger.sink, htakes], ?_⟩
    simp [Dispatcher.deliver, dispatcher, buffered, Logger.action?_buffered, haction,
      EStateM.adaptExcept, hchannel]

/-- The setting of a watched host with a buffer. -/
abbrev bufferedSetting (logger : Logger σ) (includeContext : Bool) (capacity : Option Nat)
    (error : IoError) (url : Option Url) (source : String) : Setting (Transcript (Buffered σ)) :=
  (buffered logger includeContext capacity error).watched.setting url source

theorem exists_bufferedSetting_deliver (hlogger : logger.NeverFails) (url : Option Url)
    (source : String) (diagnostic : Diagnostic) (t : Transcript (Buffered σ)) :
    ∃ host, ∀ capacity,
      (logger.leftover diagnostic).length ≤ t.host.room capacity (logger.leftover diagnostic) →
        (bufferedSetting logger includeContext capacity error url source).deliver diagnostic t =
          .ok () ⟨⟨host, t.host.taken ++ logger.leftover diagnostic⟩,
            t.calls ++ [(logger.sink diagnostic, diagnostic)], t.written⟩ := by
  obtain ⟨host, hdeliver⟩ :=
    exists_buffered_deliver includeContext error hlogger diagnostic t.host
  refine ⟨host, fun capacity hfits => ?_⟩
  have hsink := congrFun logger.sink_buffered diagnostic
  rw [deliver_watched, Transcript.forward, EStateM.adaptExcept, Transcript.host_note,
    hdeliver capacity hfits]
  simp [Transcript.note, buffered, hsink]

theorem bufferedSetting_deliver_of_lacks {diagnostic : Diagnostic} {t : Transcript (Buffered σ)}
    (h : t.host.room capacity (logger.leftover diagnostic) <
      (logger.leftover diagnostic).length) (url : Option Url) (source : String) :
    logger.sink diagnostic = .fallback ∧
      (bufferedSetting logger includeContext capacity error url source).deliver diagnostic t =
        .error (.report (.fallback diagnostic.channel error))
          ⟨⟨t.host.host, t.host.taken ++ (logger.leftover diagnostic).take
              (t.host.room capacity (logger.leftover diagnostic))⟩,
            t.calls ++ [(.fallback, diagnostic)], t.written⟩ := by
  obtain ⟨hfallback, hdeliver⟩ := buffered_deliver_of_lacks includeContext error h
  have hsink := (congrFun logger.sink_buffered diagnostic).trans hfallback
  refine ⟨hfallback, ?_⟩
  rw [deliver_watched, Transcript.forward, EStateM.adaptExcept, Transcript.host_note, hdeliver]
  simp [Transcript.note, buffered, hsink]

/-- Without a limit, steps come to their end, and the buffer takes what the logger leaves. -/
theorem runAll_unlimited (hlogger : logger.NeverFails) (url : Option Url) (source : String)
    (steps : List Step) (t : Transcript (Buffered σ)) :
    ∃ host, Step.runAll (bufferedSetting logger includeContext none error url source) steps t =
      .ok () ⟨⟨host, t.host.taken ++ (Step.reported steps).flatMap logger.leftover⟩,
        t.calls ++ (Step.reported steps).map fun d => (logger.sink d, d), t.written⟩ := by
  let told (taken : List Diagnostic) (t' : Transcript (Buffered σ)) : Prop :=
    ∃ host, t' = ⟨⟨host, t.host.taken ++ taken.flatMap logger.leftover⟩,
      t.calls ++ taken.map fun d => (logger.sink d, d), t.written⟩
  have htakes (taken : List Diagnostic) (diagnostic : Diagnostic) (t' : Transcript (Buffered σ))
      (htold : told taken t') : ∃ next,
        (bufferedSetting logger includeContext none error url source).deliver diagnostic t' =
            .ok () next ∧
          told (taken ++ [diagnostic]) next := by
    obtain ⟨host, rfl⟩ := htold
    obtain ⟨host', hdeliver⟩ :=
      exists_bufferedSetting_deliver includeContext error hlogger url source diagnostic _
    exact ⟨_, hdeliver none (Nat.le_refl _), host', by simp⟩
  obtain ⟨_, hrun, host, rfl⟩ :=
    Step.exists_runAll (fun _ => rfl) (fun _ _ => id) htakes steps [] t ⟨t.host.host, by simp⟩
  exact ⟨host, hrun⟩

/-- With a limit, steps go on alike as long as the buffer has room, up to the first diagnostic that
the logger leaves and for which the buffer lacks room. -/
theorem runAll_limited (hlogger : logger.NeverFails) (capacity : Nat) (url : Option Url)
    (source : String) (steps : List Step) (host : σ) :
    let limited := bufferedSetting logger includeContext (some capacity) error url source
    let free := bufferedSetting logger includeContext none error url source
    (((Step.reported steps).flatMap logger.leftover).length ≤ capacity ∧
        Step.runAll limited steps ⟨⟨host, []⟩, [], []⟩ =
          Step.runAll free steps ⟨⟨host, []⟩, [], []⟩) ∨
      ∃ before diagnostic after host',
        Step.reported steps = before ++ diagnostic :: after ∧
        logger.sink diagnostic = .fallback ∧
        (before.flatMap logger.leftover).length ≤ capacity ∧
        capacity < ((before ++ [diagnostic]).flatMap logger.leftover).length ∧
        Step.runAll limited steps ⟨⟨host, []⟩, [], []⟩ =
          .error (.report (.fallback diagnostic.channel error))
            ⟨⟨host', ((before ++ [diagnostic]).flatMap logger.leftover).take capacity⟩,
              (before ++ [diagnostic]).map fun d => (logger.sink d, d), []⟩ := by
  intro limited free
  let told (taken : List Diagnostic) (t : Transcript (Buffered σ)) : Prop :=
    (taken.flatMap logger.leftover).length ≤ capacity ∧
      ∃ host, t = ⟨⟨host, taken.flatMap logger.leftover⟩,
        taken.map fun d => (logger.sink d, d), []⟩
  let refuses (diagnostic : Diagnostic) (t : Transcript (Buffered σ)) : Prop :=
    t.host.room (some capacity) (logger.leftover diagnostic) < (logger.leftover diagnostic).length
  have htakes (taken : List Diagnostic) (diagnostic : Diagnostic) (t : Transcript (Buffered σ))
      (htold : told taken t) (hfits : ¬ refuses diagnostic t) : ∃ t',
        limited.deliver diagnostic t = .ok () t' ∧ free.deliver diagnostic t = .ok () t' ∧
          told (taken ++ [diagnostic]) t' := by
    obtain ⟨hle, host, rfl⟩ := htold
    have hroom := Nat.not_lt.mp hfits
    obtain ⟨host', hdeliver⟩ :=
      exists_bufferedSetting_deliver includeContext error hlogger url source diagnostic _
    refine ⟨_, hdeliver (some capacity) hroom, hdeliver none (Nat.le_refl _), ?_, host', by simp⟩
    simp only [Buffered.room_some] at hroom
    simp only [List.flatMap_append, List.flatMap_singleton, List.length_append]
    omega
  have hrefuses (taken : List Diagnostic) (diagnostic : Diagnostic) (t : Transcript (Buffered σ))
      (_ : told taken t) (hlacks : refuses diagnostic t) :
      ∃ error t', limited.deliver diagnostic t = .error error t' :=
    ⟨_, _, (bufferedSetting_deliver_of_lacks includeContext error hlacks url source).2⟩
  have hkeeps (taken : List Diagnostic) (t : Transcript (Buffered σ)) (htold : told taken t) :
      told taken (free.meanwhile t) := htold
  have hstart : told [] ⟨⟨host, []⟩, [], []⟩ := ⟨Nat.zero_le capacity, host, rfl⟩
  have hgoes (t : Transcript (Buffered σ)) :
      limited.isCancelled t = false ∧ free.isCancelled t = false := ⟨rfl, rfl⟩
  have hmeanwhile (t : Transcript (Buffered σ)) : limited.meanwhile t = free.meanwhile t := rfl
  obtain ⟨t', hlimited, hfree, hle, _⟩ |
      ⟨before, diagnostic, after, t₁, fault, t₂, hsplit, ⟨hbefore, host', rfl⟩, hlacks, hdeliver,
        hrun⟩ :=
    Step.runAll_or_refused hgoes hmeanwhile hkeeps htakes hrefuses steps [] _ hstart
  · exact .inl ⟨hle, hlimited.trans hfree.symm⟩
  · right
    obtain ⟨hfallback, hcut⟩ :=
      bufferedSetting_deliver_of_lacks includeContext error hlacks url source
    obtain ⟨rfl, rfl⟩ := EStateM.Result.error.inj (hdeliver.symm.trans hcut)
    simp only [refuses, List.nil_append, Buffered.room_some] at hbefore hlacks hrun
    refine ⟨before, diagnostic, after, host', hsplit, hfallback, hbefore, ?_, ?_⟩
    · simp only [List.flatMap_append, List.length_append, List.flatMap_singleton]
      omega
    · rw [hrun]
      simp [List.take_append, List.take_of_length_le hbefore, hfallback]

end CompileOptions

/-! ## Compilations -/

/-- The bytes of the diagnostics that went to the default channel, in order. -/
def Transcript.fallbackBytes (calls : List (Sink × Diagnostic)) : List UInt8 :=
  (calls.filter (·.1 = .fallback)).flatMap fun call => Text.Utf8.encode call.2.render

theorem Transcript.fallbackBytes_map (logger : Logger σ) (diagnostics : List Diagnostic) :
    fallbackBytes (diagnostics.map fun d => (logger.sink d, d)) =
      diagnostics.flatMap logger.leftover := by
  induction diagnostics with
  | nil => rfl
  | cons diagnostic diagnostics ih =>
    rw [List.flatMap_cons, ← ih, Logger.leftover, List.map_cons, fallbackBytes, fallbackBytes,
      List.filter_cons, Logger.sink]
    cases logger.takes diagnostic.channel <;> simp

/-- A buffer that has room for all that a compilation writes without a limit makes no difference to
it. Any other buffer is full in the end, the diagnostic with the first byte that did not fit is the
last one to be delivered, and the compilation returns the error of the buffer. It does not matter
in how many pieces a diagnostic is written. -/
theorem capacity_cuts {logger : Logger σ} (hlogger : logger.NeverFails) (includeContext : Bool)
    (capacity : Nat) (error : IoError) (url : Option Url) (source : String) (host : σ) :
    let free := CompileOptions.buffered logger includeContext none error
    let limited := CompileOptions.buffered logger includeContext (some capacity) error
    let run := compile free.watched url source ⟨⟨host, []⟩, [], []⟩
    let cut := compile limited.watched url source ⟨⟨host, []⟩, [], []⟩
    compile free url source ⟨host, []⟩ = (run.1, run.2.host) ∧
      compile limited url source ⟨host, []⟩ = (cut.1, cut.2.host) ∧
      run.2.host.taken = Transcript.fallbackBytes run.2.calls ∧
      (run.2.host.taken.length ≤ capacity → cut = run) ∧
      (capacity < run.2.host.taken.length →
        cut.2.host.taken = run.2.host.taken.take capacity ∧
          ∃ before diagnostic after, run.2.calls = before ++ (.fallback, diagnostic) :: after ∧
            (Transcript.fallbackBytes before).length ≤ capacity ∧
            capacity < (Transcript.fallbackBytes (before ++ [(.fallback, diagnostic)])).length ∧
            cut.2.calls = before ++ [(.fallback, diagnostic)] ∧
            cut.1 = .error (.report (.fallback diagnostic.channel error))) ∧
      ∀ pieces : Diagnostic → List (List UInt8),
        (∀ d, (pieces d).flatten = Text.Utf8.encode d.render) →
          free.fallback = (Buffered.stream none error).channelInPieces pieces ∧
            limited.fallback = (Buffered.stream (some capacity) error).channelInPieces pieces := by
  intro free limited run cut
  obtain ⟨script, _, hscript⟩ := exists_script url source includeContext
  let record (d : Diagnostic) : Sink × Diagnostic := (logger.sink d, d)
  have hrun : run = script.outcome (free.watched.setting url source) ⟨⟨host, []⟩, [], []⟩ :=
    hscript.compile_eq free.watched rfl _
  have hcut : cut = script.outcome (limited.watched.setting url source) ⟨⟨host, []⟩, [], []⟩ :=
    hscript.compile_eq limited.watched rfl _
  obtain ⟨host', hend⟩ := CompileOptions.runAll_unlimited includeContext error hlogger url source
    script.steps ⟨⟨host, []⟩, [], []⟩
  have houtcome : run = (script.result,
      ⟨⟨host', (Step.reported script.steps).flatMap logger.leftover⟩,
        (Step.reported script.steps).map record, []⟩) :=
    hrun.trans (Script.outcome_of_runAll_ok hend)
  refine ⟨compile_watched free url source ⟨⟨host, []⟩, [], []⟩,
    compile_watched limited url source ⟨⟨host, []⟩, [], []⟩, ?_, ?_⟩
  · rw [houtcome]
    exact (Transcript.fallbackBytes_map logger _).symm
  have hpieces (pieces : Diagnostic → List (List UInt8))
      (h : ∀ d, (pieces d).flatten = Text.Utf8.encode d.render) :
      free.fallback = (Buffered.stream none error).channelInPieces pieces ∧
        limited.fallback = (Buffered.stream (some capacity) error).channelInPieces pieces :=
    ⟨(Buffered.channelInPieces_eq h).symm, (Buffered.channelInPieces_eq h).symm⟩
  rw [← and_assoc]
  refine ⟨?_, hpieces⟩
  obtain ⟨hfits, hsame⟩ |
      ⟨before, diagnostic, after, host₂, hsplit, hsink, hbefore, hlacks, hfail⟩ :=
    CompileOptions.runAll_limited includeContext error hlogger capacity url source script.steps host
  · have htaken : run.2.host.taken.length ≤ capacity := by rwa [houtcome]
    refine ⟨fun _ => ?_, fun hlt => absurd hlt (Nat.not_lt.mpr htaken)⟩
    rw [hcut, hrun]
    exact Script.outcome_congr hsame
  · have hfailed : cut = (.error (.report (.fallback diagnostic.channel error)),
        ⟨⟨host₂, ((before ++ [diagnostic]).flatMap logger.leftover).take capacity⟩,
          (before ++ [diagnostic]).map record, []⟩) := by
      rw [hcut, Script.outcome, Script.run, bind_of_error hfail]
      rfl
    have htaken : run.2.host.taken =
        (before ++ [diagnostic]).flatMap logger.leftover ++ after.flatMap logger.leftover := by
      rw [houtcome, hsplit]
      simp
    have hlast : (before ++ [diagnostic]).map record =
        before.map record ++ [(.fallback, diagnostic)] := by
      rw [List.map_append, List.map_singleton, ← hsink]
    refine ⟨?_, fun _ => ⟨?_, before.map record, diagnostic, after.map record, ?_, ?_, ?_, ?_, ?_⟩⟩
    · intro hle
      rw [htaken, List.length_append] at hle
      omega
    · rw [hfailed, htaken, List.take_append_of_le_length (Nat.le_of_lt hlacks)]
    · rw [houtcome, hsplit, ← hsink, List.map_append, List.map_cons]
    · rwa [Transcript.fallbackBytes_map]
    · rwa [← hlast, Transcript.fallbackBytes_map]
    · rw [hfailed, hlast]
    · rw [hfailed]

/-- The only message of a text does not fit into a buffer of three bytes, also if it is written
line by line. -/
theorem capacity_cuts_debug :
    let free := CompileOptions.buffered ({} : Logger Unit) false none (.other "broken pipe")
    let limited := CompileOptions.buffered ({} : Logger Unit) false (some 3) (.other "broken pipe")
    let run := compile free.watched none "@debug #;" ⟨⟨(), []⟩, [], []⟩
    let cut := compile limited.watched none "@debug #;" ⟨⟨(), []⟩, [], []⟩
    Logger.NeverFails ({} : Logger Unit) ∧ 3 < run.2.host.taken.length ∧
      cut.2.host.taken = run.2.host.taken.take 3 ∧
      cut.1 = .error (.report (.fallback .debug (.other "broken pipe"))) ∧
      limited.fallback = (Buffered.stream (some 3) (.other "broken pipe")).channelInPieces
        fun diagnostic => diagnostic.lineTexts.map Text.Utf8.encode := by
  intro free limited run cut
  have hnever : Logger.NeverFails ({} : Logger Unit) :=
    ⟨fun _ h => by contradiction, fun _ h => by contradiction⟩
  let message := (Message.hash none false).diagnostic
  obtain ⟨host, hdeliver⟩ := CompileOptions.exists_bufferedSetting_deliver false
    (.other "broken pipe") hnever none "@debug #;" message ⟨⟨(), []⟩, [], []⟩
  have hrun : run =
      (.ok "", ⟨⟨host, [] ++ Logger.leftover {} message⟩, [(.fallback, message)], []⟩) :=
    compile_debug_hash (fun _ => rfl) (hdeliver none (Nat.le_refl _))
  obtain ⟨_, _, _, _, hcut, hpieces⟩ :=
    capacity_cuts hnever false 3 (.other "broken pipe") none "@debug #;" ()
  have hlength : 3 < run.2.host.taken.length := by
    have hrender : message.render = "- 1:1 DEBUG: #\n" := by decide +kernel
    have hbytes : (Text.Utf8.encode "- 1:1 DEBUG: #\n").length = 15 := by decide +kernel
    have hleftover : Logger.leftover ({} : Logger Unit) message =
        Text.Utf8.encode message.render := rfl
    rw [hrun, List.nil_append, hleftover, hrender, hbytes]
    decide
  obtain ⟨htaken, before, last, after, hcalls, _, _, _, herror⟩ := hcut hlength
  refine ⟨hnever, hlength, htaken, ?_, (hpieces _ Diagnostic.flatten_lineTexts).2⟩
  have hsingle : before ++ (.fallback, last) :: after = [(.fallback, message)] :=
    hcalls.symm.trans (congrArg (·.2.calls) hrun)
  obtain ⟨rfl, hlast⟩ | ⟨_, hlast⟩ := List.append_eq_singleton_iff.mp hsingle
  · obtain ⟨hlast, _⟩ := List.cons.inj hlast
    obtain rfl := (Prod.mk.inj hlast).2
    exact herror
  · exact absurd hlast (List.cons_ne_nil _ _)

end Stylesheet
