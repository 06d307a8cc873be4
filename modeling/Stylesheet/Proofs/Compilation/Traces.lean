import Stylesheet.Proofs.Compilation.Locations
import Stylesheet.Proofs.Compilation.PassedStack
import Stylesheet.Proofs.Evaluation.Inclusions

/-!
# Traces

The trace of a warning tells the inclusions that are under way, and nothing else
(`traces_tell_inclusions`): what is pushed at an inclusion and popped behind it is what could as
well have been passed down.
-/

namespace Stylesheet

variable {σ : Type}

theorem Lexeme.newline_not_mem_ident (s : List Char) : '\n' ∉ ident s := by
  rw [ident]
  split
  · intro h
    exact absurd (List.mem_takeWhile_imp h) (by decide)
  · simp

/-- The name of a mixin that a text includes is an identifier. -/
theorem Statement.newline_not_mem_name {source : String} {statements : List Statement}
    {range : Range} {name : String} (hparse : parse source = .ok statements)
    (hs : .includeMixin range name ∈ nodesIn statements) : '\n' ∉ name.toList := by
  obtain ⟨last, hstands⟩ := parse_stands hparse
  obtain ⟨isBlock, a, b, hnode, _⟩ := hstands.within_of_mem_nodesIn hs
  cases hnode with
  | includeMixin hat hname hend =>
    obtain ⟨_, rfl, _⟩ := hname
    rw [String.toList_ofList]
    exact Lexeme.newline_not_mem_ident _

/-- A compilation that keeps a call stack does what one does that passes its call stack down. Each
warning is said by a statement that the run has come to in some chain of inclusions, and whenever
this happens, its trace has one line more than the chain: the span of the warning with the innermost
mixin, then the span of each inclusion with the mixin around it, and last the span of the outermost
inclusion with the root of the style sheet. The host is watched, which does not change what it
sees. -/
theorem traces_tell_inclusions (options : CompileOptions σ) (url : Option Url) (source : String)
    (host : σ) :
    let setting := options.watched.setting url source
    let run := compile options.watched url source ⟨host, [], []⟩
    let hears (statements : List Statement) := Statement.HearsIn setting
      (Statement.depthLimit statements) statements { host := ⟨host, [], []⟩ }
    compile options url source host = (run.1, run.2.host) ∧
      run = compileUnder options.watched url source ⟨host, [], []⟩ ∧
      (∀ call ∈ run.2.calls, ∃ statements chain span,
        parse source = .ok statements ∧ hears statements chain span call.2) ∧
      ∀ statements chain span message warnOptions, parse source = .ok statements →
        hears statements chain span (.warn message warnOptions) →
        warnOptions.span = some span ∧ ∃ stack, warnOptions.stack = some stack ∧
          Text.lines stack = Inclusion.traceLines span chain ∧
          (Text.lines stack).length = chain.length + 1 := by
  intro setting run hears
  refine ⟨compile_watched options url source ⟨host, [], []⟩,
    compile_eq_compileUnder options.watched url source ⟨host, [], []⟩, ?_, ?_⟩
  · intro call hcall
    cases hparse : parse source with
    | error fault =>
      have hrun : run = (.error (parseFailure setting fault), ⟨host, [], []⟩) :=
        compile_of_parse_eq_error options.watched url hparse ⟨host, [], []⟩
      rw [hrun] at hcall
      contradiction
    | ok statements =>
      obtain ⟨hcalls, _⟩ := compile_tells options url hparse host
      obtain ⟨chain, span, hhears⟩ := (hcalls call hcall).exists_chain
      exact ⟨statements, chain, span, rfl, hhears⟩
  · intro statements chain span message warnOptions hparse hhears
    obtain ⟨hspan, hstack⟩ := hhears.warning_eq rfl
    have hnames : ∀ inclusion ∈ chain, '\n' ∉ inclusion.mixin.toList := by
      intro inclusion hinclusion
      obtain ⟨s, machine, range, hcomes, _⟩ := hhears
      obtain ⟨_, hs, _⟩ := hcomes.exists_includeMixin (options.notes_watched url source)
        (Machine.knows_start statements _) (fun _ h => h) inclusion hinclusion
      exact Statement.newline_not_mem_name hparse hs
    have hlines := CallStack.lines_trace hnames span
    exact ⟨hspan, _, hstack, hlines, by rw [hlines, Inclusion.length_traceLines]⟩

end Stylesheet
