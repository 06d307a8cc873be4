import Stylesheet.Proofs.Compilation.Messages

/-!
# Cancellation

A host that cancels while it handles a diagnostic is handed no further one, and has no style sheet
from the compilation (`cancellation_cuts`). Every report of a script is behind a poll, and a
script that has a value ends in one; nothing else is needed of an evaluation. Nor does it matter
when a host cancels: whatever its polls read, what it was handed are the first of all diagnostics.
-/

namespace Stylesheet

variable {σ : Type} {α : Type}

/-- The host of a setting cancels while it handles its diagnostic of a number, counted from one, or
before all diagnostics if the number is zero. -/
def Setting.cancelledAt (setting : Setting (Transcript σ)) (n : Nat) : Setting (Transcript σ) :=
  { setting with isCancelled := fun t => decide (n ≤ t.calls.length) }

/-- The host of a setting never cancels. -/
def Setting.uncancelled (setting : Setting (Transcript σ)) : Setting (Transcript σ) :=
  { setting with isCancelled := fun _ => false }

/-! ## Steps -/

namespace Step

variable {setting : Setting (Transcript σ)} {sink : Diagnostic → Sink}
  {bytes : Diagnostic → List UInt8} {n : Nat} {t : Transcript σ}

theorem isCancelled_cancelledAt_of_lt (hrecords : setting.Records sink bytes)
    (h : t.calls.length < n) :
    (setting.cancelledAt n).isCancelled ((setting.cancelledAt n).meanwhile t) = false := by
  rw [← hrecords.calls_meanwhile t] at h
  exact decide_eq_false (Nat.not_le.mpr h)

/-- Up to its diagnostic, a host that cancels at one goes on as one that never does. -/
theorem runAll_cancelledAt_of_lt (hrecords : setting.Records sink bytes) (steps : List Step)
    (t : Transcript σ) (h : t.calls.length + (reported steps).length < n) :
    runAll (setting.cancelledAt n) steps t = runAll setting.uncancelled steps t := by
  induction steps generalizing t with
  | nil => rfl
  | cons step steps ih =>
    have hgoes := isCancelled_cancelledAt_of_lt (n := n) (t := t) hrecords (by omega)
    have hfree : setting.uncancelled.isCancelled (setting.uncancelled.meanwhile t) = false := rfl
    have hcalls := hrecords.calls_meanwhile t
    cases step with
    | poll =>
      rw [runAll_poll hgoes, runAll_poll hfree]
      exact ih _ (hcalls ▸ h)
    | report diagnostic =>
      obtain ⟨host, hdeliver⟩ := hrecords.deliver diagnostic (setting.meanwhile t)
      rw [runAll_report hgoes hdeliver, runAll_report hfree hdeliver]
      apply ih
      simp [hcalls] at h ⊢
      omega

/-- Behind its diagnostic, a host that has cancelled is asked for nothing more: what steps are left
over end in an error. -/
theorem runAll_cancelledAt_of_le (hrecords : setting.Records sink bytes) (steps : List Step)
    (t : Transcript σ) (hlt : t.calls.length < n)
    (hle : n ≤ t.calls.length + (reported steps).length) :
    ∃ t' : Transcript σ,
      t'.calls = t.calls ++ ((reported steps).map fun d => (sink d, d)).take (n - t.calls.length) ∧
      (runAll (setting.cancelledAt n) steps t = .error .cancelled t' ∨
        runAll (setting.cancelledAt n) steps t = .ok () t' ∧ steps.getLast? ≠ some .poll) := by
  induction steps generalizing t with
  | nil =>
    simp at hle
    omega
  | cons step steps ih =>
    have hgoes := isCancelled_cancelledAt_of_lt hrecords hlt
    have hasked := hrecords.calls_meanwhile t
    cases step with
    | poll =>
      obtain ⟨t', hcalls, hrun⟩ := ih (setting.meanwhile t) (hasked ▸ hlt) (hasked ▸ hle)
      rw [hasked] at hcalls
      refine ⟨t', hcalls, ?_⟩
      rw [runAll_poll hgoes]
      refine hrun.imp_right fun ⟨hok, hlast⟩ => ⟨hok, ?_⟩
      cases steps with
      | nil =>
        simp at hle
        omega
      | cons next steps => rwa [List.getLast?_cons_cons]
    | report diagnostic =>
      obtain ⟨host, hdeliver⟩ := hrecords.deliver diagnostic (setting.meanwhile t)
      rw [hasked] at hdeliver
      let after : Transcript σ := ⟨host, t.calls ++ [(sink diagnostic, diagnostic)],
        (setting.meanwhile t).written ++ bytes diagnostic⟩
      have hlength : after.calls.length = t.calls.length + 1 := by simp [after]
      rw [runAll_report hgoes hdeliver]
      rcases Nat.lt_or_ge after.calls.length n with hbefore | hreached
      · obtain ⟨t', hcalls, hrun⟩ := ih after hbefore (by simp at hle; omega)
        refine ⟨t', ?_, ?_⟩
        · have htake : n - t.calls.length = (n - after.calls.length) + 1 := by omega
          rw [hcalls, htake]
          simp [after]
        · refine hrun.imp_right fun ⟨hok, hlast⟩ => ⟨hok, ?_⟩
          cases steps with
          | nil => simp
          | cons next steps => rwa [List.getLast?_cons_cons]
      · have hone : n - t.calls.length = 1 := by omega
        have hcalls := hrecords.calls_meanwhile after
        cases steps with
        | nil => exact ⟨after, by simp [hone, after], .inr ⟨rfl, by simp⟩⟩
        | cons next steps =>
          refine ⟨setting.meanwhile after, by simp [hcalls, hone, after], .inl ?_⟩
          exact runAll_cons_of_isCancelled (decide_eq_true (hcalls ▸ hreached)) next steps

/-- Whatever the polls of a host read, it goes to the end of steps, or it cancels behind the first
diagnostics that they report. -/
theorem runAll_of_records_or_cancelled (hrecords : setting.Records sink bytes)
    (steps : List Step) (t : Transcript σ) : ∃ count t',
      t'.calls = t.calls ++ ((reported steps).map fun d => (sink d, d)).take count ∧
      (runAll setting steps t = .error .cancelled t' ∨
        runAll setting steps t = .ok () t' ∧ (reported steps).length ≤ count) := by
  induction steps generalizing t with
  | nil => exact ⟨0, t, by simp, .inr ⟨rfl, Nat.le_refl 0⟩⟩
  | cons step steps ih =>
    have hasked := hrecords.calls_meanwhile t
    cases hgoes : setting.isCancelled (setting.meanwhile t) with
    | true =>
      refine ⟨0, setting.meanwhile t, by simp [hasked], .inl ?_⟩
      exact runAll_cons_of_isCancelled hgoes step steps
    | false =>
      cases step with
      | poll =>
        obtain ⟨count, t', hcalls, hrun⟩ := ih (setting.meanwhile t)
        rw [hasked] at hcalls
        exact ⟨count, t', hcalls, by rwa [runAll_poll hgoes]⟩
      | report diagnostic =>
        obtain ⟨host, hdeliver⟩ := hrecords.deliver diagnostic (setting.meanwhile t)
        rw [hasked] at hdeliver
        let next : Transcript σ := ⟨host, t.calls ++ [(sink diagnostic, diagnostic)],
          (setting.meanwhile t).written ++ bytes diagnostic⟩
        obtain ⟨count, t', hcalls, hrun⟩ := ih next
        refine ⟨count + 1, t', by simpa [next] using hcalls, ?_⟩
        rw [runAll_report hgoes hdeliver]
        exact hrun.imp_right fun ⟨hok, hall⟩ => ⟨hok, Nat.succ_le_succ hall⟩

end Step

/-! ## Hosts that have cancelled before the start -/

theorem Statement.run_of_isCancelled {setting : Setting σ} {machine : Machine σ}
    (h : setting.isCancelled (machine.polled setting).host = true)
    (runMixin : List Statement → Run σ Unit) (s : Statement) :
    s.run setting runMixin machine = .error .cancelled (machine.polled setting) := by
  cases s <;> (rw [Statement.run]; exact bind_of_error (Machine.check_of_true h))

theorem evaluate_of_isCancelled {setting : Setting σ} {machine : Machine σ}
    (h : setting.isCancelled (machine.polled setting).host = true) (statements : List Statement) :
    evaluate setting statements machine = .error .cancelled (machine.polled setting) := by
  have hblock (depth : Nat) :
      runBlock setting depth statements machine = .error .cancelled (machine.polled setting) ∨
        runBlock setting depth statements machine = .ok () machine := by
    cases statements with
    | nil => exact .inr (by cases depth <;> rfl)
    | cons s statements =>
      left
      cases depth <;>
        (rw [runBlock, Statement.runAll]; exact bind_of_error (Statement.run_of_isCancelled h _ s))
  rw [evaluate]
  rcases hblock (Statement.definitionsIn statements + recursionAllowance) with hrun | hrun
  · exact bind_of_error hrun
  · exact (bind_of_ok hrun).trans (bind_of_error (Machine.check_of_true h))

/-! ## Compilations -/

/-- A watched host that cancels while it handles its diagnostic of a number, counted from one, or
before the start if the number is zero. -/
def CompileOptions.cancelledAt (options : CompileOptions σ) (n : Nat) :
    CompileOptions (Transcript σ) :=
  { options.watched with isCancelled := fun t => decide (n ≤ t.calls.length) }

/-- A watched host that never cancels. -/
def CompileOptions.uncancelled (options : CompileOptions σ) : CompileOptions (Transcript σ) :=
  { options.watched with isCancelled := fun _ => false }

/-- A script for a host that cancels at a diagnostic ends behind it. Its error is the cancellation
or, where it has no step left, the error in which it ends anyway. -/
theorem Script.outcome_cancelledAt {setting : Setting (Transcript σ)} {sink : Diagnostic → Sink}
    {bytes : Diagnostic → List UInt8} (hrecords : setting.Records sink bytes) {script : Script α}
    (hpoll : script.EndsInPoll) {n : Nat} {t : Transcript σ} (hlt : t.calls.length < n)
    (hle : n ≤ t.calls.length + (Step.reported script.steps).length) :
    (script.outcome (setting.cancelledAt n) t).2.calls = t.calls ++
        ((Step.reported script.steps).map fun d => (sink d, d)).take (n - t.calls.length) ∧
      ((script.outcome (setting.cancelledAt n) t).1 = .error .cancelled ∨
        ∃ error, script.result = .error error ∧
          (script.outcome (setting.cancelledAt n) t).1 = .error error) := by
  obtain ⟨t', hcalls, hrun⟩ := Step.runAll_cancelledAt_of_le hrecords script.steps t hlt hle
  rcases hrun with hcancelled | ⟨hok, hlast⟩
  · have houtcome : script.outcome (setting.cancelledAt n) t = (.error .cancelled, t') := by
      rw [outcome, run, bind_of_error hcancelled, outcomeOf]
    rw [houtcome]
    exact ⟨hcalls, .inl rfl⟩
  · have houtcome := outcome_of_runAll_ok hok
    rw [houtcome]
    cases hresult : script.result with
    | ok a => exact absurd (hpoll a hresult) hlast
    | error error => exact ⟨hcalls, .inr ⟨error, rfl, rfl⟩⟩

/-- A compilation that is cancelled while a diagnostic is handled delivers this one as its last and
does not succeed. It is not told apart from an uncancelled one before that, and not started if it
is cancelled from the outset. Whatever the polls of the host read, and whatever becomes of it
meanwhile, it is handed the first of the diagnostics of the uncancelled compilation; if the
cancellation is not the result, it is handed all of them, and the result is the same. -/
theorem cancellation_cuts (options : CompileOptions σ) (hoptions : options.NeverFails)
    (url : Option Url) (source : String) (statements : List Statement)
    (hparse : parse source = .ok statements) (host : σ) (n : Nat) :
    let free := compile options.uncancelled url source ⟨host, [], []⟩
    let cut := compile (options.cancelledAt n) url source ⟨host, [], []⟩
    let own := compile options.watched url source ⟨host, [], []⟩
    (n = 0 → cut = (.error .cancelled, ⟨options.meanwhile host, [], []⟩)) ∧
      (1 ≤ n → n ≤ free.2.calls.length → cut.2.calls = free.2.calls.take n ∧
        (cut.1 = .error .cancelled ∨ ∃ error, free.1 = .error error ∧ cut.1 = .error error)) ∧
      (free.2.calls.length < n → cut = free) ∧
      own.2.calls <+: free.2.calls ∧
      (own.1 = .error .cancelled ∨ own.1 = free.1 ∧ own.2.calls = free.2.calls) := by
  intro free cut own
  obtain ⟨script, hpoll, hscript⟩ := exists_script url source options.includeContext
  let setting := options.watched.setting url source
  have hrecords : setting.Records options.logger.sink fun _ => [] :=
    options.records_watched hoptions url source
  have hrecords' : setting.uncancelled.Records options.logger.sink fun _ => [] :=
    ⟨hrecords.deliver, hrecords.meanwhile⟩
  have hcut : cut = script.outcome (setting.cancelledAt n) ⟨host, [], []⟩ :=
    hscript.compile_eq (options.cancelledAt n) rfl _
  have hfree : free = script.outcome setting.uncancelled ⟨host, [], []⟩ :=
    hscript.compile_eq options.uncancelled rfl _
  obtain ⟨host', houtcome⟩ := Script.outcome_of_records hrecords' (fun _ => rfl) script host
  rw [← hfree] at houtcome
  have hlength : free.2.calls.length = (Step.reported script.steps).length := by
    rw [houtcome, List.length_map]
  have hown : own = script.outcome setting ⟨host, [], []⟩ :=
    hscript.compile_eq options.watched rfl _
  obtain ⟨count, t, hcalls, hsteps⟩ :=
    Step.runAll_of_records_or_cancelled hrecords script.steps ⟨host, [], []⟩
  rw [List.nil_append] at hcalls
  refine ⟨?_, ?_, ?_, ?_⟩
  · intro hzero
    have hcancelled : ((options.cancelledAt n).setting url source).isCancelled
        ⟨options.meanwhile host, [], []⟩ = true := decide_eq_true (Nat.le_of_eq hzero)
    have hrun : evaluate ((options.cancelledAt n).setting url source) statements
        { host := ⟨host, [], []⟩ } =
          .error .cancelled { host := ⟨options.meanwhile host, [], []⟩ } :=
      evaluate_of_isCancelled hcancelled statements
    have hverdict := compile_of_parse_eq_ok (options.cancelledAt n) url hparse ⟨host, [], []⟩
    rw [hrun] at hverdict
    exact hverdict
  · intro hone hle
    rw [hlength] at hle
    obtain ⟨hcalls, herror⟩ := Script.outcome_cancelledAt hrecords hpoll (t := ⟨host, [], []⟩) hone
      (by simpa using hle)
    rw [hcut, houtcome]
    exact ⟨by simpa using hcalls, herror⟩
  · intro hlt
    rw [hlength] at hlt
    have hrun := Step.runAll_cancelledAt_of_lt hrecords script.steps ⟨host, [], []⟩
      (by simpa using hlt)
    rw [hcut, hfree]
    exact Script.outcome_congr hrun
  · rw [hown, houtcome]
    rcases hsteps with hcancelled | ⟨hok, hall⟩
    · rw [Script.outcome, Script.run, bind_of_error hcancelled]
      exact ⟨hcalls ▸ List.take_prefix .., .inl rfl⟩
    · rw [List.take_of_length_le (by rwa [List.length_map])] at hcalls
      rw [Script.outcome_of_runAll_ok hok, hcalls]
      exact ⟨List.prefix_refl _, .inr ⟨rfl, rfl⟩⟩

/-- A recorder that takes debug messages and leaves warnings to its stream. -/
def CompileOptions.recorded : CompileOptions Recorder where
  logger := Recorder.logger {} none (some .record)
  fallback := (Recorder.stream {}).channel

theorem CompileOptions.recorded_neverFails : recorded.NeverFails :=
  ⟨Recorder.logger_neverFails rfl rfl, Recorder.channel_neverFails rfl rfl⟩

/-- The messages of a text with two of them. -/
def Message.hashes : List Message :=
  [⟨⟨0, 8⟩, ⟨7, 8⟩, "#", false,
      Span.image [] "@debug #".toList ";@debug #;".toList none false⟩,
    ⟨⟨9, 17⟩, ⟨16, 17⟩, "#", false,
      Span.image "@debug #;".toList "@debug #".toList [';'] none false⟩]

/-- A recorder cancels while it handles the first or the second message of a text, before both, or
never. -/
theorem cancellation_cuts_debug :
    let source := "@debug #;@debug #;"
    let free := compile CompileOptions.recorded.uncancelled none source ⟨{}, [], []⟩
    let cut n := compile (CompileOptions.recorded.cancelledAt n) none source ⟨{}, [], []⟩
    let calls := Message.hashes.map fun message => (Sink.logger, message.diagnostic)
    CompileOptions.recorded.NeverFails ∧
      parse source = .ok (Message.hashes.map Message.statement) ∧
      free.1 = .ok "" ∧ free.2.calls = calls ∧
      cut 0 = (.error .cancelled, ⟨{}, [], []⟩) ∧
      (cut 1).1 = .error .cancelled ∧ (cut 1).2.calls = calls.take 1 ∧
      (cut 2).1 = .error .cancelled ∧ (cut 2).2.calls = calls ∧ cut 3 = free := by
  intro source free cut calls
  let options := CompileOptions.recorded.uncancelled
  have hparse : parse source = .ok (Message.hashes.map Message.statement) := parse_debug_hash_twice
  have hspans : ∀ message ∈ Message.hashes,
      (options.setting none source).span message.range = .ok message.span := by
    have hfirst : (Range.mk 0 8).Cuts source [] "@debug #".toList ";@debug #;".toList :=
      ⟨by decide, by decide, by decide⟩
    have hsecond : (Range.mk 9 17).Cuts source "@debug #;".toList "@debug #".toList [';'] :=
      ⟨by decide, by decide, by decide⟩
    simp only [Message.hashes, List.forall_mem_cons, List.not_mem_nil, false_implies,
      implies_true, and_true]
    exact ⟨hfirst.span_eq options none, hsecond.span_eq options none⟩
  have hrecords : (options.setting none source).Records CompileOptions.recorded.logger.sink
      fun _ => [] :=
    have h := CompileOptions.recorded.records_watched CompileOptions.recorded_neverFails none source
    ⟨h.deliver, h.meanwhile⟩
  obtain ⟨host, hdeliver⟩ := Step.runAll_of_records hrecords (fun _ => rfl)
    (Message.hashes.map fun message => .report message.diagnostic) ⟨{}, [], []⟩
  have hfree : free = (.ok "", ⟨host, calls, []⟩) :=
    Setting.compile_messages hparse (fun _ => rfl) hspans hdeliver
  have hcuts (n : Nat) := cancellation_cuts CompileOptions.recorded
    CompileOptions.recorded_neverFails none source _ hparse {} n
  have hcut (n : Nat) (hone : 1 ≤ n) (hle : n ≤ 2) :
      (cut n).1 = .error .cancelled ∧ (cut n).2.calls = calls.take n := by
    have hlength : n ≤ free.2.calls.length := by rwa [hfree]
    obtain ⟨hcalls, herror⟩ := (hcuts n).2.1 hone hlength
    refine ⟨herror.resolve_right ?_, hcalls.trans (congrArg (·.2.calls.take n) hfree)⟩
    rintro ⟨error, hfailed, -⟩
    cases hfailed.symm.trans (congrArg Prod.fst hfree)
  have hlast : free.2.calls.length < 3 := by
    rw [hfree]
    exact Nat.lt_succ_self 2
  obtain ⟨⟨hfirst, hcalls⟩, hsecond, hcalls'⟩ :=
    And.intro (hcut 1 (Nat.le_refl 1) (by decide)) (hcut 2 (by decide) (Nat.le_refl 2))
  exact ⟨CompileOptions.recorded_neverFails, hparse, by rw [hfree], by rw [hfree],
    (hcuts 0).1 rfl, hfirst, hcalls, hsecond, hcalls', (hcuts 3).2.2.1 hlast⟩

end Stylesheet
