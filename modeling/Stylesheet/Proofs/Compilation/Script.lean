import Stylesheet.Proofs.Evaluation.HostIndependence
import Stylesheet.Proofs.Report.Transcript

/-!
# Compilations are scripted

For each source text there is one script that every host follows (`exists_script`). What it has the
host take can be heard by a host that does nothing but listen (`Script.reports_eq`).
-/

namespace Stylesheet

variable {σ : Type} {α β : Type}

/-! ## Outcomes -/

/-- A result apart from the host that it leaves. -/
def outcomeOf (result : EStateM.Result CompileError σ α) : Except CompileError α × σ :=
  match result with
  | .ok a host => (.ok a, host)
  | .error error host => (.error error, host)

/-- What comes of a script, and the host after it. -/
def Script.outcome (setting : Setting σ) (script : Script α) (host : σ) :
    Except CompileError α × σ :=
  outcomeOf (script.run setting host)

theorem Script.outcome_congr {setting setting' : Setting σ} {script : Script α} {host : σ}
    (h : Step.runAll setting script.steps host = Step.runAll setting' script.steps host) :
    script.outcome setting host = script.outcome setting' host := by
  simp only [outcome, run, bind, EStateM.bind, h]

/-- A script that keeps a part of its value. -/
def Script.map (f : α → β) (script : Script α) : Script β :=
  ⟨script.steps, script.result.map f⟩

theorem Script.outcome_map (setting : Setting σ) (f : α → β) (script : Script α) (host : σ) :
    (script.map f).outcome setting host =
      ((script.outcome setting host).1.map f, (script.outcome setting host).2) := by
  obtain ⟨steps, result⟩ := script
  simp only [outcome, outcomeOf, map, run, bind, EStateM.bind]
  cases Step.runAll setting steps host with
  | error error host => rfl
  | ok _ host => cases result <;> rfl

theorem Script.EndsInPoll.map {script : Script α} (h : script.EndsInPoll) (f : α → β) :
    (script.map f).EndsInPoll := by
  intro b hb
  cases hresult : script.result with
  | ok a => exact h a hresult
  | error error => simp [Script.map, hresult, Except.map] at hb

/-! ## Listening -/

/-- The setting of a host that keeps the diagnostics it is handed and does nothing else. No logger
and no default channel stand between them. -/
def Setting.listening (url : Option Url) (source : String) (includeContext : Bool) :
    Setting (List Diagnostic) where
  index := LineIndex.ofString source
  url := url
  includeContext := includeContext
  dispatch diagnostic := modify (· ++ [diagnostic])
  isCancelled _ := false

/-- The diagnostics that the compilation of a text produces, in order. -/
def reports (url : Option Url) (source : String) (includeContext : Bool) : List Diagnostic :=
  ((Setting.listening url source includeContext).compile source []).2

/-- Spans depend on the text, the URL and whether they carry context, not on the host. -/
theorem CompileOptions.span_setting {options : CompileOptions σ} {includeContext : Bool}
    (h : options.includeContext = includeContext) (url : Option Url) (source : String) :
    (options.setting url source).span = (Setting.listening url source includeContext).span := by
  subst h
  rfl

/-! ## The script of a compilation -/

/-- The result of an evaluation apart from the machine, of which the host alone is left. -/
def Machine.verdict (result : EStateM.Result CompileError (Machine σ) String) :
    Except CompileError String × σ :=
  match result with
  | .ok css machine => (.ok css, machine.host)
  | .error error machine => (.error error, machine.host)

theorem Machine.verdict_eq (run : Run σ String) (host : σ) :
    Machine.verdict (run { host := host }) =
      ((outcomeOf (Machine.act run { host := () } host)).1.map Prod.fst,
        (outcomeOf (Machine.act run { host := () } host)).2) := by
  simp only [Machine.act, Machine.withHost]
  cases run { host := host } <;> rfl

theorem Setting.compile_of_parse_eq_error (setting : Setting σ) {source : String}
    {error : ParseError} (h : parse source = .error error) (host : σ) :
    setting.compile source host = (.error (parseFailure setting error), host) := by
  rw [compile, h]

theorem compile_of_parse_eq_error (options : CompileOptions σ) (url : Option Url) {source : String}
    {error : ParseError} (h : parse source = .error error) (host : σ) :
    compile options url source host =
      (.error (parseFailure (options.setting url source) error), host) :=
  (options.setting url source).compile_of_parse_eq_error h host

/-- What a compilation makes of an accepted text, whichever way this is run. An evaluation in place
of `run` would be computed in the proof, which never ends. -/
theorem verdict_of_parsed (run : List Statement → Run σ String) (host : σ)
    (failure : ParseError → CompileError) (parsed : Except ParseError (List Statement))
    (statements : List Statement) :
    parsed = .ok statements →
      (match parsed with
        | Except.error error => (Except.error (failure error), host)
        | Except.ok statements =>
          match run statements { host := host } with
          | EStateM.Result.ok css machine => (Except.ok css, machine.host)
          | EStateM.Result.error error machine => (Except.error error, machine.host)) =
        Machine.verdict (run statements { host := host }) := by
  intro h
  subst h
  dsimp only
  cases run statements { host := host } <;> rfl

theorem Setting.compile_of_parse_eq_ok (setting : Setting σ) {source : String}
    {statements : List Statement} (h : parse source = .ok statements) (host : σ) :
    setting.compile source host =
      Machine.verdict (evaluate setting statements { host := host }) := by
  rw [compile]
  exact verdict_of_parsed (evaluate setting) host (parseFailure setting) (parse source) statements h

theorem compile_of_parse_eq_ok (options : CompileOptions σ) (url : Option Url) {source : String}
    {statements : List Statement} (h : parse source = .ok statements) (host : σ) :
    compile options url source host =
      Machine.verdict (evaluate (options.setting url source) statements { host := host }) :=
  (options.setting url source).compile_of_parse_eq_ok h host

/-- Whether a script describes the compilation of a text for every host, where the ranges of the
text have the spans that one who listens finds. -/
def Script.Compiles (script : Script String) (url : Option Url) (source : String)
    (includeContext : Bool) : Prop :=
  ∀ σ (setting : Setting σ), setting.span = (Setting.listening url source includeContext).span →
    ∀ host, setting.compile source host = script.outcome setting host

/-- All hosts that ask for context alike follow one script. -/
theorem exists_script (url : Option Url) (source : String) (includeContext : Bool) :
    ∃ script : Script String, script.EndsInPoll ∧ script.Compiles url source includeContext := by
  let listening := Setting.listening url source includeContext
  cases hparse : parse source with
  | error error =>
    refine ⟨⟨[], .error (parseFailure listening error)⟩, ?_, ?_⟩
    · intro css hcss
      contradiction
    · intro σ setting hspan host
      rw [setting.compile_of_parse_eq_error hparse, parseFailure, parseFailure, hspan]
      rfl
  | ok statements =>
    obtain ⟨script, hpoll, hscript⟩ :=
      evaluate_scripted listening.span statements { host := () }
    refine ⟨script.map Prod.fst, hpoll.map Prod.fst, ?_⟩
    intro σ setting hspan host
    have hrun : Machine.act (evaluate setting statements) { host := () } host =
        script.run setting host := congrFun (hscript σ setting hspan) host
    rw [setting.compile_of_parse_eq_ok hparse, Machine.verdict_eq, hrun, Script.outcome_map]
    rfl

theorem Script.Compiles.compile_eq {script : Script String} {url : Option Url} {source : String}
    {includeContext : Bool} (h : script.Compiles url source includeContext)
    (options : CompileOptions σ) (hcontext : options.includeContext = includeContext) (host : σ) :
    compile options url source host = script.outcome (options.setting url source) host :=
  h σ (options.setting url source) (CompileOptions.span_setting hcontext url source) host

theorem Script.outcome_of_runAll_ok {setting : Setting σ} {script : Script α} {host host' : σ}
    (h : Step.runAll setting script.steps host = .ok () host') :
    script.outcome setting host = (script.result, host') := by
  rw [Script.outcome, Script.run, bind_of_ok h]
  cases script.result <;> rfl

/-- Who listens to a compilation hears what its script reports. -/
theorem Script.Compiles.reports_eq {script : Script String} {url : Option Url} {source : String}
    {includeContext : Bool} (h : script.Compiles url source includeContext) :
    reports url source includeContext = Step.reported script.steps := by
  let listening := Setting.listening url source includeContext
  have htakes (taken : List Diagnostic) (diagnostic : Diagnostic) (heard : List Diagnostic)
      (hheard : heard = taken) :
      ∃ next, listening.deliver diagnostic heard = .ok () next ∧ next = taken ++ [diagnostic] :=
    ⟨_, rfl, by rw [hheard]⟩
  obtain ⟨_, hrun, rfl⟩ :=
    Step.exists_runAll (fun _ => rfl) (fun _ _ => id) htakes script.steps [] [] rfl
  rw [reports, h _ listening rfl, outcome_of_runAll_ok hrun, List.nil_append]

end Stylesheet
