import Stylesheet.Proofs.Compilation.Locations
import Stylesheet.Proofs.Evaluation.Failures
import Stylesheet.Proofs.Evaluation.KnownMixins
import Stylesheet.Proofs.Syntax.References

/-!
# Undefined variables

A compilation that ends for want of a variable points at a reference to it: at the dollar sign and
the name, with the parentheses that hold nothing else (`undefined_variable_at`).
-/

namespace Stylesheet

variable {σ : Type}

/-! ## Failures of compilations -/

/-- An evaluation that does not fail for its host, for a range or for its depth has come to a
statement of the program that raises the error. -/
theorem evaluate_raises {setting : Setting σ} {statements : List Statement} {host : σ}
    {error : CompileError} {last : Machine σ}
    (h : evaluate setting statements { host := host } = .error error last)
    (hforeign : ¬error.IsForeign) (hdepth : error ≠ .tooDeep) :
    ∃ t ∈ Statement.nodesIn statements, ∃ machine, t.Raises setting machine error := by
  rw [evaluate] at h
  obtain hrun | ⟨_, middle, -, hrest⟩ := bind_eq_error h
  · obtain ⟨chain, t, machine, hcomes, hraises | ⟨rfl, -⟩⟩ := Statement.runBlock_fails hrun
    · have hdefined := Machine.isDefinedBy_start statements host
      exact ⟨t, (hcomes.within hdefined fun _ hs => hs).1, machine, hraises⟩
    · contradiction
  · obtain herror | ⟨-, hrest⟩ := Statement.check_bind_eq_error hrest
    · contradiction
    · contradiction

/-- A reference to a variable without a value is in the expression of a statement. -/
theorem Statement.Raises.exists_reference {setting : Setting σ} {machine : Machine σ}
    {t : Statement} {name : String} {span : Span}
    (h : t.Raises setting machine (.undefinedVariable name span)) :
    ∃ range, .var range name ∈ t.exprs ∧ setting.span range = .ok span := by
  cases h with
  | foreign h => cases h
  | operand hoperand h =>
    cases h with
    | foreign h => cases h
    | @undefinedVariable range _ _ hnode _ hspan =>
      have hvalue := Option.mem_toList.mpr (value?_of_operand? hoperand)
      exact ⟨range, List.mem_flatMap.mpr ⟨_, hvalue, hnode⟩, hspan⟩

/-! ## Compilations -/

/-- The span of an undefined variable is that of a reference to it in the text. It holds the text of
the reference, and all the parentheses that hold nothing else, wherever the reference stands. -/
theorem undefined_variable_at (options : CompileOptions σ) (url : Option Url) (source : String)
    (host : σ) {name : String} {span : Span}
    (h : (compile options url source host).1 = .error (.undefinedVariable name span)) :
    ∃ statements s range front text rest, parse source = .ok statements ∧
      s ∈ Statement.nodesIn statements ∧ .var range name ∈ s.exprs ∧
      range.Cuts source front text rest ∧
      span = Span.image front text rest url options.includeContext ∧
      span.text = String.ofList text ∧ IsReference name text ∧
      ¬Statement.IsParenthesized source statements text rest := by
  cases hparse : parse source with
  | error error =>
    obtain ⟨front, text, rest, hcut⟩ := exists_cut_of_parse_eq_error hparse
    rw [compile_of_parse_eq_error options url hparse, hcut.parseFailure_eq] at h
    have hkind := Except.error.inj h
    contradiction
  | ok statements =>
    rw [compile_of_parse_eq_ok options url hparse host] at h
    cases hrun : evaluate (options.setting url source) statements { host := host } with
    | ok css last =>
      rw [hrun] at h
      contradiction
    | error error last =>
      rw [hrun] at h
      obtain rfl := Except.error.inj h
      obtain ⟨s, hs, machine, hraises⟩ := evaluate_raises hrun (fun h => by cases h) (by nofun)
      obtain ⟨range, hvar, hspan⟩ := hraises.exists_reference
      obtain ⟨front, text, rest, hcuts, htext, hparentheses⟩ := reference_text hparse hs hvar
      obtain rfl := Except.ok.inj (hspan.symm.trans (hcuts.span_eq options url))
      exact ⟨statements, s, range, front, text, rest, rfl, hs, hvar, hcuts, rfl, rfl, htext,
        hparentheses⟩

/-! ## A reference in parentheses -/

/-- A variable in parentheses, with the gaps behind the opening one and in front of the other. -/
theorem traced_group : (Expr.var ⟨7, 11⟩ "x").Traced .list ⟨7, some ' ', "($x);".toList⟩
    ⟨11, some ')', [';']⟩ [⟨8, some '(', "$x);".toList⟩, ⟨10, some 'x', ");".toList⟩] := by
  let start : Cursor := ⟨7, some ' ', "($x);".toList⟩
  let stop : Cursor := ⟨10, some 'x', ");".toList⟩
  have hbehind : (start.skip 1).skipTrivia = ⟨8, some '(', "$x);".toList⟩ := by decide +kernel
  have hname : (Cursor.mk 9 (some '$') "x);".toList).Names "x" stop :=
    Cursor.names_of_ident (by decide +kernel) (by decide)
  have hvar : (Expr.var ⟨8, 10⟩ "x").Traced .list (start.skip 1).skipTrivia stop [] := by
    rw [hbehind]
    exact .sum (.product (.factor (.primary (by decide)
      (.leaf (.var (a := ⟨8, some '(', "$x);".toList⟩) rfl hname)))))
  have hclose : stop.Passes ')' ⟨11, some ')', [';']⟩ := ⟨by decide +kernel, by decide +kernel⟩
  exact .sum (.product (.factor (.primary (by decide) (.group (a := start) rfl hvar hclose))))

theorem parse_debug_group : parse "@debug ($x);" =
    .ok [.debug ⟨0, 11⟩ (.var ⟨7, 11⟩ "x")] :=
  parse_debug_of_stands (by decide) traced_group.stands (by decide)

/-- The range of a reference in parentheses, cut out of the text. -/
theorem cuts_debug_group :
    (Range.mk 7 11).Cuts "@debug ($x);" "@debug ".toList "($x)".toList [';'] :=
  ⟨by decide, by decide, by decide⟩

theorem Statement.run_debug_undefined {setting : Setting σ} {machine : Machine σ}
    {range place : Range} {name : String} {span : Span}
    (hgoes : setting.isCancelled (machine.polled setting).host = false)
    (hunbound : machine.scopes.get? name = none)
    (hspan : setting.span place = .ok span) (runMixin : List Statement → Run σ Unit) :
    (Statement.debug range (.var place name)).run setting runMixin machine =
      .error (.undefinedVariable name span) (machine.polled setting) := by
  have heval (host : σ) : (Expr.var place name).eval setting machine.scopes machine.stack host =
      .error (.undefinedVariable name span) host := by
    rw [Expr.eval, hunbound]
    dsimp only
    rw [hspan]
    rfl
  have hvalue : setting.value (.var place name) (machine.polled setting) =
      .error (.undefinedVariable name span) (machine.polled setting) := by
    change Machine.onHost (Expr.eval setting machine.scopes machine.stack _) _ = _
    rw [Machine.onHost, heval]
  rw [Statement.run, bind_of_ok (Machine.check_of_false hgoes), bind_of_error hvalue]

theorem evaluate_singleton_of_error {setting : Setting σ} {machine last : Machine σ}
    {s : Statement} {error : CompileError}
    (hrun : ∀ runMixin, s.run setting runMixin machine = .error error last) :
    evaluate setting [s] machine = .error error last := by
  have hfirst (runMixin : List Statement → Run σ Unit) :
      Statement.runAll setting runMixin [s] machine = .error error last := by
    rw [Statement.runAll, bind_of_error (hrun runMixin)]
  rw [evaluate, runBlock_eq, bind_of_error (hfirst _)]

/-- A compilation that has not been cancelled misses the variable in the parentheses. -/
theorem compile_debug_group (options : CompileOptions σ) (url : Option Url) (host : σ)
    (hgoes : options.isCancelled (options.meanwhile host) = false) :
    (compile options url "@debug ($x);" host).1 = .error (.undefinedVariable "x"
      (Span.image "@debug ".toList "($x)".toList [';'] url options.includeContext)) := by
  let start : Machine σ := { host := host }
  have hunbound : start.scopes.get? "x" = none := rfl
  rw [compile_of_parse_eq_ok options url parse_debug_group, evaluate_singleton_of_error
    (Statement.run_debug_undefined hgoes hunbound (cuts_debug_group.span_eq options url))]
  rfl

/-- The span of the reference in parentheses. The name behind the dollar sign stands in them, so it
is not the span by itself. -/
theorem undefined_variable_at_group :
    let options : CompileOptions Unit := { logger := .silent, fallback := fun _ => pure () }
    let statements := [Statement.debug ⟨0, 11⟩ (.var ⟨7, 11⟩ "x")]
    let span := Span.image "@debug ".toList "($x)".toList [';'] none false
    (compile options none "@debug ($x);" ()).1 = .error (.undefinedVariable "x" span) ∧
      Statement.IsParenthesized "@debug ($x);" statements "$x".toList ");".toList ∧
      ∃ front text rest, "@debug ($x);".toList = front ++ text ++ rest ∧
        span = Span.image front text rest none false ∧ IsReference "x" text ∧
        ¬Statement.IsParenthesized "@debug ($x);" statements text rest := by
  intro options statements span
  have hcompile := compile_debug_group options none () rfl
  have hinside : Statement.IsParenthesized "@debug ($x);" statements "$x".toList ");".toList := by
    have hstart : Cursor.start "@debug ($x);".toList ≤ ⟨7, some ' ', "($x);".toList⟩ :=
      ⟨7, by decide⟩
    exact ⟨_, [], [], [';'], ⟨_, List.mem_cons_self, _, _, _, _, rfl, hstart, traced_group,
      List.mem_cons_self⟩, rfl, rfl, .nil, rfl, .nil⟩
  obtain ⟨found, s, range, front, text, rest, hparse, -, -, hcuts, hspan, -, htext, houtside⟩ :=
    undefined_variable_at options none "@debug ($x);" () hcompile
  obtain rfl : statements = found := Except.ok.inj (parse_debug_group.symm.trans hparse)
  exact ⟨hcompile, hinside, front, text, rest, hcuts.parts, hspan, htext, houtside⟩

/-- The span of an undefined variable is not always its name behind the dollar sign. -/
theorem not_undefined_variable_bare : ¬∀ (options : CompileOptions Unit) (url : Option Url)
    (source : String) (host : Unit) (name : String) (span : Span),
      (compile options url source host).1 = .error (.undefinedVariable name span) →
        span.text = "$" ++ name := by
  intro hall
  let options : CompileOptions Unit := { logger := .silent, fallback := fun _ => pure () }
  have htext := hall _ _ _ _ _ _ (compile_debug_group options none () rfl)
  revert htext
  decide

end Stylesheet
