import Stylesheet.Proofs.Compilation.Script
import Stylesheet.Proofs.Evaluation.Mirroring

/-!
# Compilations in step

Settings in step make whole compilations go in step (`compile_mirrors`). A setting is in step with
itself, so a compilation that pushes and pops its call stack does what one does that passes its
call stack down (`compile_eq_compileUnder`).
-/

namespace Stylesheet

variable {σ τ : Type} {f : Span → Span} {hosts : σ → τ → Prop}

/-- The error of a text that cannot be parsed is the same but for its span. -/
theorem Setting.Mirrors.parseFailure_eq {setting : Setting σ} {setting' : Setting τ}
    (h : setting.Mirrors f hosts setting') (error : ParseError) :
    parseFailure setting' error = (parseFailure setting error).mapSpan f := by
  rw [parseFailure, parseFailure, h.span_eq]
  cases hspan : setting.span error.range with
  | ok span => rfl
  | error fault => exact (mapSpan_of_span_eq_error hspan).symm

theorem compileUnder_of_parse_eq_error (options : CompileOptions σ) (url : Option Url)
    {source : String} {error : ParseError} (h : parse source = .error error) (host : σ) :
    compileUnder options url source host =
      (.error (parseFailure (options.setting url source) error), host) := by
  rw [compileUnder, h]

theorem compileUnder_of_parse_eq_ok (options : CompileOptions σ) (url : Option Url)
    {source : String} {statements : List Statement} (h : parse source = .ok statements)
    (host : σ) :
    compileUnder options url source host =
      Machine.verdict (evaluateUnder (options.setting url source) statements { host := host }) := by
  rw [compileUnder]
  exact verdict_of_parsed (evaluateUnder (options.setting url source)) host
    (parseFailure (options.setting url source)) (parse source) statements h

/-- What agrees as an evaluation agrees as the result of a compilation. -/
theorem Agree.verdict {rel : Machine σ → Machine τ → Prop}
    {result : EStateM.Result CompileError (Machine σ) String}
    {result' : EStateM.Result CompileError (Machine τ) String} (h : Agree f rel result result')
    (hrel : ∀ machine machine', rel machine machine' → hosts machine.host machine'.host) :
    (Machine.verdict result').1 = (Machine.verdict result).1.mapError (CompileError.mapSpan f) ∧
      hosts (Machine.verdict result).2 (Machine.verdict result').2 := by
  cases result <;> cases result'
  · exact ⟨congrArg Except.ok h.1.symm, hrel _ _ h.2⟩
  · contradiction
  · contradiction
  · exact ⟨congrArg Except.error h.1.symm, hrel _ _ h.2⟩

/-- A compilation goes in step with one that passes its call stack down. -/
theorem compile_mirrors {options : CompileOptions σ} {options' : CompileOptions τ}
    {url : Option Url} {source : String}
    (h : (options.setting url source).Mirrors f hosts (options'.setting url source)) {host : σ}
    {host' : τ} (hhost : hosts host host') :
    let run := compile options url source host
    let run' := compileUnder options' url source host'
    run'.1 = run.1.mapError (CompileError.mapSpan f) ∧ hosts run.2 run'.2 := by
  intro run run'
  cases hparse : parse source with
  | error error =>
    simp only [run, run', compile_of_parse_eq_error options url hparse,
      compileUnder_of_parse_eq_error options' url hparse, h.parseFailure_eq]
    exact ⟨rfl, hhost⟩
  | ok statements =>
    simp only [run, run', compile_of_parse_eq_ok options url hparse,
      compileUnder_of_parse_eq_ok options' url hparse]
    exact (evaluate_mirrors h statements hhost).verdict fun _ _ hm => hm.host

/-- Nothing comes of pushing and popping a call stack that does not come of passing it down. -/
theorem compile_eq_compileUnder (options : CompileOptions σ) (url : Option Url) (source : String)
    (host : σ) : compile options url source host = compileUnder options url source host := by
  obtain ⟨hresult, hhost⟩ := compile_mirrors
    (Setting.mirrors_self (options.setting url source)) (Eq.refl host)
  have hid : (compile options url source host).1.mapError (CompileError.mapSpan id) =
      (compile options url source host).1 := by
    cases (compile options url source host).1 with
    | ok css => rfl
    | error error => exact congrArg Except.error error.mapSpan_id
  exact Prod.ext (hid.symm.trans hresult.symm) hhost

end Stylesheet
