import Stylesheet.Proofs.Compilation.Locations
import Stylesheet.Proofs.Evaluation.Building
import Stylesheet.Proofs.Syntax.Acceptance

/-!
# Flattening

A style sheet of rules, declarations of literals and mixins compiles to the text of its rule tree
(`compile_flattens`).
-/

namespace Stylesheet

variable {σ : Type}

/-! ## Trees out of their text -/

mutual

/-- What a literal stands for does not depend on where it stands. -/
theorem Expr.literal?_unplaced : (e : Expr) → e.unplaced.literal? = e.literal?
  | .number .. | .text .. | .var .. | .binary .. => rfl
  | .negate _ (.number ..) | .negate _ (.text ..) | .negate _ (.var ..) |
    .negate _ (.binary ..) | .negate _ (.negate ..) | .negate _ (.list ..) => rfl
  | .list _ items => by
    rw [Expr.unplaced, Expr.literal?, Expr.literal?, Expr.literals?_unplacedAll items]

theorem Expr.literals?_unplacedAll : (items : List Expr) →
    Expr.literals? (Expr.unplacedAll items) = Expr.literals? items
  | [] => rfl
  | item :: items => by
    rw [Expr.unplacedAll, Expr.literals?, Expr.literals?, item.literal?_unplaced,
      Expr.literals?_unplacedAll items]

end

namespace Statement

mutual

theorem expand?_unplaced (mixins : Expansions) :
    (s : Statement) → s.unplaced.expand? mixins = s.expand? mixins
  | .declaration _ _ e => by rw [unplaced, expand?, expand?, e.literal?_unplaced]
  | .rule _ _ body => by rw [unplaced, expand?, expand?, expandAll?_unplacedAll mixins body]
  | .assign .. | .warn .. | .debug .. | .defineMixin .. | .includeMixin .. => rfl

theorem expandAll?_unplacedAll (mixins : Expansions) : (statements : List Statement) →
    expandAll? mixins (unplacedAll statements) = expandAll? mixins statements
  | [] => rfl
  | s :: statements => by
    rw [unplacedAll, expandAll?, expandAll?, s.expand?_unplaced mixins,
      expandAll?_unplacedAll mixins statements]

end

/-- What a style sheet stands for does not depend on how it is laid out. -/
theorem sheet?_unplacedAll (mixins : Expansions) (statements : List Statement) :
    sheet? mixins (unplacedAll statements) = sheet? mixins statements := by
  induction statements generalizing mixins with
  | nil => rfl
  | cons s statements ih =>
    have hfirst := s.expand?_unplaced mixins
    cases s with
    | defineMixin range name body =>
      simp only [unplacedAll, unplaced, sheet?, expandAll?_unplacedAll, ih]
    | _ =>
      rw [unplaced] at hfirst
      simp only [unplacedAll, unplaced, sheet?, hfirst, ih]

end Statement

/-! ## Compiling -/

/-- A style sheet of nested rules, of declarations of literals, of mixins that are each defined once
outside of all blocks, and of inclusions of mixins defined before, compiles if all declarations come
to stand in rules. Its text is that of its rules in the order of their entry, each with the
declarations directly in it and with its selector seen from the rule around it, where the bodies of
mixins stand in place of their inclusions. The host is not asked to take anything: it is only asked,
a number of times, whether it has cancelled. -/
theorem compile_flattens (options : CompileOptions σ) (url : Option Url) {source : String}
    {statements : List Statement} {trees : List RuleTree} (hparse : parse source = .ok statements)
    (hsheet : Statement.sheet? [] statements = some trees)
    (hrules : ∀ tree ∈ trees, tree.isRule = true) {host : σ}
    (hgoes : ∀ n, options.isCancelled (options.meanwhile^[n] host) = false) :
    ∃ n, compile options url source host =
      (.ok (RuleTree.css trees), options.meanwhile^[n] host) := by
  have hspans : Statement.HaveSpans (options.setting url source) statements := by
    intro s hs
    obtain ⟨span, hspan, _⟩ := Statement.exists_image_of_mem options url hparse
      (Statement.range_mem_rangesIn hs)
    exact ⟨span, hspan⟩
  obtain ⟨machine, n, heval, hhost⟩ := evaluate_sheet hspans hsheet hrules hgoes
  refine ⟨n, ?_⟩
  rw [compile_of_parse_eq_ok options url hparse, heval, Machine.verdict, hhost]
  rfl

/-- A rule that includes a mixin with a rule in it, in front of a declaration of its own. -/
theorem compile_flattens_mixin :
    let options : CompileOptions Unit := { logger := .silent, fallback := fun _ => pure () }
    let source := "\n@mixin m \x7b\nb: c d;\n& + &e \x7b\nb: d;\n\x7d\n\x7d\n" ++
      "a \x7b\n@include m;\nc: d;\n\x7d"
    ∃ statements trees, parse source = .ok statements ∧
      Statement.sheet? [] statements = some trees ∧ (∀ tree ∈ trees, tree.isRule = true) ∧
      (∀ n, options.isCancelled (options.meanwhile^[n] ()) = false) ∧
      compile options none source () =
        (.ok "a \x7b\n  b: c d;\n  c: d;\n\x7d\n\na + ae \x7b\n  b: d;\n\x7d\n", ()) := by
  intro options source
  let clauses : List Clause := [
    .defineMixin "m" [
      .declaration "b" (.list [.word "c", .word "d"]),
      .rule "& + &e" [.declaration "b" (.word "d")]],
    .rule "a" [.includeMixin "m", .declaration "c" (.word "d")]]
  have hname : IsName "m" ∧ IsName "b" ∧ IsName "c" ∧ IsName "d" := by
    refine ⟨⟨by decide, ?_⟩, ⟨by decide, ?_⟩, ⟨by decide, ?_⟩, ⟨by decide, ?_⟩⟩ <;> decide +kernel
  obtain ⟨hm, hb, hc, hd⟩ := hname
  have hwords : ∀ t ∈ [Term.word "c", .word "d"], t.IsWellFormed := by
    simp only [List.forall_mem_cons, List.not_mem_nil, false_implies, implies_true, and_true]
    exact ⟨.name hc, .name hd⟩
  have hmarks (s : String) (h : s.toList.all (Lexeme.isStatementMark · == false) = true) :
      ∀ c ∈ s.toList, Lexeme.isStatementMark c = false :=
    fun c hc => eq_of_beq (List.all_eq_true.mp h c hc)
  have hselectors : IsSelector "& + &e" ∧ IsSelector "a" := by
    refine ⟨⟨by decide, by decide, hmarks _ (by decide), ?_, by decide⟩,
      ⟨by decide, by decide, hmarks _ (by decide), ?_, by decide⟩⟩ <;>
    · intro c hc
      obtain rfl := Option.some.inj hc
      decide
  have hclauses : ∀ clause ∈ clauses, clause.IsWellFormed false := by
    simp only [clauses, List.forall_mem_cons, List.not_mem_nil, false_implies, implies_true,
      and_true]
    refine ⟨.defineMixin hm ?_, .rule hselectors.2 ?_⟩ <;>
      simp only [List.forall_mem_cons, List.not_mem_nil, false_implies, implies_true, and_true]
    · refine ⟨.declaration hb (.list (by decide) hwords) (by decide), .rule hselectors.1 ?_⟩
      exact List.forall_mem_singleton.mpr (.declaration hb (.name hd) (by decide))
    · exact ⟨.includeMixin hm, .declaration hc (.name hd) (by decide)⟩
  have htext : String.ofList (Clause.lines (fun _ _ => false) clauses) = source := by
    decide +kernel
  let trees : List RuleTree := [.rule "a" [
    .declaration "b" (.list [.text "c" false, .text "d" false]),
    .rule "& + &e" [.declaration "b" (.text "d" false)],
    .declaration "c" (.text "d" false)]]
  have htrees : Statement.sheet? [] (Clause.trees clauses) = some trees := rfl
  have hrules : ∀ tree ∈ trees, tree.isRule = true := List.forall_mem_singleton.mpr rfl
  have hcss : RuleTree.css trees =
      "a \x7b\n  b: c d;\n  c: d;\n\x7d\n\na + ae \x7b\n  b: d;\n\x7d\n" := by
    decide +kernel
  obtain ⟨statements, hparse, hunplaced⟩ := parse_lines (fun _ _ => false) hclauses
  rw [htext] at hparse
  have hsheet : Statement.sheet? [] statements = some trees := by
    rw [← Statement.sheet?_unplacedAll, hunplaced, htrees]
  refine ⟨statements, trees, hparse, hsheet, hrules, fun _ => rfl, ?_⟩
  obtain ⟨_, hcompile⟩ := compile_flattens options none hparse hsheet hrules (fun _ => rfl)
  rw [hcompile, hcss]

end Stylesheet
