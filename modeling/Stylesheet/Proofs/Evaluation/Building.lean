import Mathlib.Logic.Function.Iterate
import Stylesheet.Proofs.Evaluation.Reach
import Stylesheet.Proofs.Evaluation.RuleTree
import Stylesheet.Proofs.Evaluation.Script

/-!
# Building the rules of a tree

What running a statement does to a machine, if the statement stands for rule trees: the declarations
directly in them go to the rule under way, their rules follow all rules made so far, and nothing
else changes (`Statement.run_builds`). The rule under way is the invariant: it is always one of
those made so far, so that its declarations stay apart from the rules that come after it. A whole
style sheet changes the mixins besides, and comes to the text of its trees (`evaluate_sheet`).
-/

namespace Stylesheet

variable {σ : Type} {setting : Setting σ}

open RuleTree

/-! ## Literals -/

mutual

theorem Expr.eval_literal {scopes : Scopes} {stack : CallStack} {host : σ} {value : Value} :
    (e : Expr) → e.literal? = some value → e.eval setting scopes stack host = .ok value host
  | .number _ _ _, h | .negate _ (.number _ _ _), h | .text _ _ _, h => by
    obtain rfl := Option.some.inj h
    rfl
  | .list _ items, h => by
    obtain ⟨values, hvalues, rfl⟩ := Option.map_eq_some_iff.mp h
    rw [Expr.eval, bind_of_ok (Expr.evalAll_literals items hvalues)]
    rfl
  | .var .., h | .binary .., h | .negate _ (.var ..), h | .negate _ (.text ..), h |
    .negate _ (.binary ..), h | .negate _ (.negate ..), h | .negate _ (.list ..), h => by
    simp [Expr.literal?] at h

theorem Expr.evalAll_literals {scopes : Scopes} {stack : CallStack} {host : σ}
    {values : List Value} : (items : List Expr) → Expr.literals? items = some values →
      Expr.evalAll setting scopes stack items host = .ok values host
  | [], h => by
    obtain rfl := Option.some.inj h
    rfl
  | item :: items, h => by
    obtain ⟨value, hvalue, h⟩ := Option.bind_eq_some_iff.mp h
    obtain ⟨values, hvalues, h⟩ := Option.bind_eq_some_iff.mp h
    obtain rfl := Option.some.inj h
    rw [Expr.evalAll, bind_of_ok (item.eval_literal hvalue),
      bind_of_ok (Expr.evalAll_literals items hvalues)]
    rfl

end

/-! ## Rules that take in declarations -/

namespace CssRule

/-- A rule with more declarations. -/
def extend (declarations : List (String × String)) (rule : CssRule) : CssRule :=
  { rule with declarations := rule.declarations ++ declarations }

/-- Rules of which one, if one is under way, takes in declarations. -/
def extendAt (declarations : List (String × String)) (rules : Array CssRule) :
    Option Nat → Array CssRule
  | none => rules
  | some current => rules.modify current (extend declarations)

variable {rules later : Array CssRule} {current : Option Nat}

@[simp] theorem size_extendAt (declarations : List (String × String)) :
    (extendAt declarations rules current).size = rules.size := by
  cases current <;> simp [extendAt]

theorem extendAt_nil : extendAt [] rules current = rules := by
  cases current with
  | none => rfl
  | some current =>
    have hid : extend [] = id := by
      funext rule
      rw [extend, List.append_nil]
      rfl
    rw [extendAt, hid]
    apply Array.toList_inj.mp
    simp [Array.toList_modify]

theorem extendAt_extendAt (declarations more : List (String × String)) :
    extendAt more (extendAt declarations rules current) current =
      extendAt (declarations ++ more) rules current := by
  cases current with
  | none => rfl
  | some current =>
    have hcomp : extend more ∘ extend declarations = extend (declarations ++ more) := by
      funext rule
      simp [extend]
    apply Array.toList_inj.mp
    simp [extendAt, Array.toList_modify, List.modify_modify_eq, hcomp]

/-- Rules behind the one under way are not touched. -/
theorem extendAt_append (h : ∀ rule, current = some rule → rule < rules.size)
    (declarations : List (String × String)) :
    extendAt declarations (rules ++ later) current =
      extendAt declarations rules current ++ later := by
  cases current with
  | none => rfl
  | some current =>
    have hlt := h current rfl
    apply Array.ext
    · simp [extendAt]
    · intro i hi hi'
      simp only [extendAt, Array.getElem_modify, Array.getElem_append, Array.size_modify]
      grind

/-- A rule that has just been made takes in its declarations. -/
theorem extendAt_push (selector : String) (declarations : List (String × String)) :
    extendAt declarations (rules.push { selector := selector }) (some rules.size) =
      rules.push ⟨selector, declarations⟩ := by
  apply Array.ext
  · simp
  · intro i hi hi'
    simp only [extendAt, Array.getElem_modify, Array.getElem_push]
    grind [extend]

end CssRule

/-! ## Machines that take in trees -/

namespace RuleTree

theorem declarations_append (trees more : List RuleTree) :
    declarations (trees ++ more) = declarations trees ++ declarations more := by
  induction trees with
  | nil => rfl
  | cons tree trees ih => cases tree <;> simp [declarations, ih]

theorem flattenAll_append (outer : Option String) (trees more : List RuleTree) :
    flattenAll outer (trees ++ more) = flattenAll outer trees ++ flattenAll outer more := by
  induction trees with
  | nil => rfl
  | cons tree trees ih => simp [flattenAll, ih]

end RuleTree

namespace Machine

/-- The machine after the declarations directly in trees have gone to the rule under way, if there
is one, and the rules of the trees to the end of the rules. -/
def absorb (trees : List RuleTree) (machine : Machine σ) : Machine σ :=
  { machine with
    rules := CssRule.extendAt (declarations trees) machine.rules machine.currentRule ++
      (flattenAll machine.selectors.head? trees).toArray }

/-- The rule under way is one of the rules made so far. -/
def IsPlaced (machine : Machine σ) : Prop :=
  ∀ rule, machine.currentRule = some rule → rule < machine.rules.size

variable {machine : Machine σ} {trees more : List RuleTree}

theorem absorb_nil (machine : Machine σ) : machine.absorb [] = machine := by
  simp [absorb, declarations, flattenAll, CssRule.extendAt_nil]

theorem absorb_absorb (hplaced : machine.IsPlaced) :
    (machine.absorb trees).absorb more = machine.absorb (trees ++ more) := by
  have hplaced' : ∀ rule, machine.currentRule = some rule →
      rule < (CssRule.extendAt (declarations trees) machine.rules machine.currentRule).size := by
    intro rule hrule
    rw [CssRule.size_extendAt]
    exact hplaced rule hrule
  simp [absorb, CssRule.extendAt_append hplaced', CssRule.extendAt_extendAt, declarations_append,
    flattenAll_append]

theorem IsPlaced.absorb (h : machine.IsPlaced) (trees : List RuleTree) :
    (machine.absorb trees).IsPlaced := by
  intro rule hrule
  have hlt := h rule hrule
  simp only [Machine.absorb, Array.size_append, CssRule.size_extendAt]
  omega

theorem isPlaced_enterRule (machine : Machine σ) (selector : String) :
    (machine.enterRule selector).IsPlaced := by
  intro rule hrule
  obtain rfl := Option.some.inj hrule
  simp [Machine.enterRule]

theorem absorb_declaration {rule : Nat} (h : machine.currentRule = some rule) (property : String)
    (value : Value) :
    machine.absorb [.declaration property value] = machine.declare rule property value := by
  have hextend : CssRule.extend [(property, value.display)] =
      fun rule => rule.declare property value.display := rfl
  simp [absorb, declare, h, declarations, flattenAll, flatten, CssRule.extendAt, hextend]

theorem absorb_rule (machine : Machine σ) (selector : String) (body : List RuleTree) :
    ((machine.enterRule (resolveSelector machine.selectors.head? selector)).absorb body).leaveRule
      machine.currentRule = machine.absorb [.rule selector body] := by
  simp only [absorb, enterRule, leaveRule, CssRule.extendAt_push, declarations,
    CssRule.extendAt_nil, flattenAll, flatten, resolve_eq]
  simp [Scopes.enter, Scopes.leave]

theorem absorb_mixin (machine : Machine σ) (name : String) (callSite : Span)
    (trees : List RuleTree) :
    ((machine.enterMixin name callSite).absorb trees).leaveMixin machine.scopes.locals =
      machine.absorb trees := rfl

end Machine

/-! ## Statements that build trees -/

/-- The ranges of statements have spans. -/
def Statement.HaveSpans (setting : Setting σ) (statements : List Statement) : Prop :=
  ∀ s ∈ nodesIn statements, ∃ span, setting.span s.range = .ok span

/-- The mixins of a machine stand for expansions: each has a body that expands to what is listed,
with those of the mixins defined before it. -/
inductive StandFor (setting : Setting σ) (bodies : Bindings (List Statement)) : Expansions → Prop
  | nil : StandFor setting bodies []
  | cons {name : String} {body : List Statement} {trees : List RuleTree} {mixins : Expansions}
      (hbody : bodies.get? name = some body) (hspans : Statement.HaveSpans setting body)
      (htrees : Statement.expandAll? mixins body = some trees)
      (h : StandFor setting bodies mixins) : StandFor setting bodies ((name, trees) :: mixins)

namespace StandFor

variable {bodies : Bindings (List Statement)} {mixins : Expansions}

/-- A mixin with an expansion has a body, which includes only mixins defined before it. -/
theorem exists_body (h : StandFor setting bodies mixins) {name : String} {trees : List RuleTree}
    (hlookup : mixins.lookup name = some trees) :
    ∃ body before, bodies.get? name = some body ∧ Statement.HaveSpans setting body ∧
      Statement.expandAll? before body = some trees ∧ StandFor setting bodies before ∧
      before.length < mixins.length := by
  induction h with
  | nil => contradiction
  | @cons other body expansion mixins hbody hspans htrees h ih =>
    rw [List.lookup_cons] at hlookup
    by_cases hname : name = other
    · subst other
      obtain rfl : expansion = trees := by simpa using hlookup
      exact ⟨body, mixins, hbody, hspans, htrees, h, Nat.lt_succ_self _⟩
    · rw [beq_false_of_ne hname] at hlookup
      obtain ⟨body, before, hbody, hspans, htrees, h, hlt⟩ := ih hlookup
      exact ⟨body, before, hbody, hspans, htrees, h, Nat.lt_succ_of_lt hlt⟩

/-- Defining another mixin does not change what the mixins stand for. -/
theorem insert (h : StandFor setting bodies mixins) {name : String}
    (hlookup : mixins.lookup name = none) (body : List Statement) :
    StandFor setting (bodies.insert name body) mixins := by
  induction h with
  | nil => exact nil
  | @cons other _ _ mixins hbody hspans htrees h ih =>
    rw [List.lookup_cons] at hlookup
    by_cases hname : name = other
    · simp [hname] at hlookup
    · rw [beq_false_of_ne hname] at hlookup
      refine cons ?_ hspans htrees (ih hlookup)
      rw [Bindings.get?_insert, if_neg (Ne.symm hname), hbody]

end StandFor

/-- A machine when its host has been asked a number of times whether it has cancelled. -/
def Machine.waited (setting : Setting σ) (n : Nat) (machine : Machine σ) : Machine σ :=
  { machine with host := setting.meanwhile^[n] machine.host }

theorem Machine.waited_waited (setting : Setting σ) (m n : Nat) (machine : Machine σ) :
    (machine.waited setting m).waited setting n = machine.waited setting (n + m) := by
  simp only [waited, Function.iterate_add_apply]

/-- A machine can build trees: the host goes on however often it is asked, the mixins stand for
their expansions, and there is a rule under way for declarations outside of the rules of the
trees. -/
structure Machine.IsReady (setting : Setting σ) (mixins : Expansions) (trees : List RuleTree)
    (machine : Machine σ) : Prop where
  goes : ∀ n, setting.isCancelled (machine.waited setting n).host = false
  standFor : StandFor setting machine.mixins mixins
  placed : machine.IsPlaced
  within : machine.currentRule = none → ∀ tree ∈ trees, tree.isRule = true

section

variable {machine : Machine σ} {mixins : Expansions} {trees more : List RuleTree}

theorem Machine.IsReady.of_append (h : machine.IsReady setting mixins (trees ++ more)) :
    machine.IsReady setting mixins trees :=
  { h with within := fun hnone tree htree => h.within hnone tree (List.mem_append_left _ htree) }

theorem Machine.IsReady.absorb (h : machine.IsReady setting mixins (trees ++ more)) :
    (machine.absorb trees).IsReady setting mixins more where
  goes := h.goes
  standFor := h.standFor
  placed := h.placed.absorb trees
  within hnone tree htree := h.within hnone tree (List.mem_append_right _ htree)

theorem Machine.IsReady.waited (h : machine.IsReady setting mixins trees) (n : Nat) :
    (machine.waited setting n).IsReady setting mixins trees where
  goes m := by rw [waited_waited, h.goes]
  standFor := h.standFor
  placed := h.placed
  within := h.within

end

/-- A run builds trees: from every machine that is ready for them it comes to the machine that has
taken them in, and does no more to the host than to ask it. -/
def Builds (setting : Setting σ) (mixins : Expansions) (run : Run σ Unit)
    (trees : List RuleTree) : Prop :=
  ∀ machine : Machine σ, machine.IsReady setting mixins trees →
    ∃ n, run machine = .ok () ((machine.absorb trees).waited setting n)

/-- Running the body of a mixin builds its expansion. -/
def BodiesBuild (setting : Setting σ) (runMixin : List Statement → Run σ Unit)
    (mixins : Expansions) : Prop :=
  ∀ name trees, mixins.lookup name = some trees →
    ∀ machine : Machine σ, machine.IsReady setting mixins trees →
      ∃ body, machine.mixins.get? name = some body ∧
        ∃ n, runMixin body machine = .ok () ((machine.absorb trees).waited setting n)

section

variable {runMixin : List Statement → Run σ Unit} {mixins : Expansions}

mutual

theorem Statement.run_builds (hmixins : BodiesBuild setting runMixin mixins)
    {trees : List RuleTree} : (s : Statement) → HaveSpans setting [s] →
      s.expand? mixins = some trees → Builds setting mixins (s.run setting runMixin) trees
  | .declaration range property e, _, h => by
    obtain ⟨value, hvalue, rfl⟩ := Option.map_eq_some_iff.mp h
    intro before hready
    let machine := before.polled setting
    refine ⟨1, ?_⟩
    rw [Statement.run, bind_of_ok (Machine.check_of_false (hready.goes 1)), get_bind]
    change _ = EStateM.Result.ok () (machine.absorb _)
    cases hrule : machine.currentRule with
    | none =>
      have hstray := hready.within hrule _ List.mem_cons_self
      contradiction
    | some current =>
      have heval : setting.value e machine = .ok value machine := by
        change Machine.onHost _ machine = _
        rw [Machine.onHost, e.eval_literal hvalue]
      dsimp only
      rw [bind_of_ok heval, Machine.absorb_declaration hrule]
      rfl
  | .rule _ selector body, hspans, h => by
    obtain ⟨body', hbody, rfl⟩ := Option.map_eq_some_iff.mp h
    intro before hready
    let machine := before.polled setting
    have hinside : Machine.IsReady setting mixins body'
        (machine.enterRule (resolveSelector machine.selectors.head? selector)) :=
      ⟨(hready.waited 1).goes, hready.standFor, machine.isPlaced_enterRule _,
        fun hnone => by contradiction⟩
    obtain ⟨n, hrun⟩ :=
      Statement.runAll_builds hmixins body (forall_nodes_inner hspans) hbody _ hinside
    refine ⟨n + 1, ?_⟩
    rw [Statement.run, bind_of_ok (Machine.check_of_false (hready.goes 1)), get_bind,
      Machine.bracket, hrun, ← Machine.waited_waited]
    change _ = EStateM.Result.ok () ((machine.absorb _).waited setting n)
    rw [← machine.absorb_rule]
    rfl
  | .includeMixin range name, hspans, h => by
    obtain ⟨span, hspan⟩ := hspans _ List.mem_cons_self
    intro before hready
    let machine := before.polled setting
    have hinside : (machine.enterMixin name span).IsReady setting mixins trees :=
      ⟨(hready.waited 1).goes, hready.standFor, hready.placed, hready.within⟩
    obtain ⟨body, hbody, n, hrun⟩ := hmixins name trees h _ hinside
    have hspan' : setting.span range = .ok span := hspan
    have hbody' : machine.mixins.get? name = some body := hbody
    have hgoes : setting.isCancelled (before.polled setting).host = false := hready.goes 1
    refine ⟨n + 1, ?_⟩
    rw [Statement.run_includeMixin, if_neg (Bool.eq_false_iff.mp hgoes), hspan']
    simp only [machine, hbody', Machine.bracket, hrun, ← Machine.waited_waited]
    change _ = EStateM.Result.ok () ((machine.absorb trees).waited setting n)
    rw [← machine.absorb_mixin name span]
    rfl
  | .assign .., _, h | .warn .., _, h | .debug .., _, h | .defineMixin .., _, h => by
    simp [Statement.expand?] at h

theorem Statement.runAll_builds (hmixins : BodiesBuild setting runMixin mixins)
    {trees : List RuleTree} : (statements : List Statement) → HaveSpans setting statements →
      Statement.expandAll? mixins statements = some trees →
      Builds setting mixins (Statement.runAll setting runMixin statements) trees
  | [], _, h => by
    obtain rfl := Option.some.inj h
    intro machine _
    refine ⟨0, ?_⟩
    rw [Statement.runAll, machine.absorb_nil]
    rfl
  | s :: statements, hspans, h => by
    obtain ⟨first, hfirst, h⟩ := Option.bind_eq_some_iff.mp h
    obtain ⟨rest, hrest, h⟩ := Option.bind_eq_some_iff.mp h
    obtain rfl := Option.some.inj h
    intro machine hready
    obtain ⟨m, hrun⟩ := Statement.run_builds hmixins s (forall_nodes_first hspans) hfirst machine
      hready.of_append
    obtain ⟨n, hruns⟩ := Statement.runAll_builds hmixins statements (forall_nodes_rest hspans)
      hrest _ (hready.absorb.waited m)
    refine ⟨n + m, ?_⟩
    rw [Statement.runAll, bind_of_ok hrun, hruns, ← Machine.absorb_absorb hready.placed,
      ← Machine.waited_waited]
    rfl

end

end

/-! ## Style sheets -/

/-- Mixins build their expansions if they can be nested as deep as there are mixins. -/
theorem bodiesBuild_runMixin {mixins : Expansions} {depth : Nat} (hdepth : mixins.length ≤ depth) :
    BodiesBuild setting (setting.runMixin depth) mixins := by
  induction depth generalizing mixins with
  | zero =>
    obtain rfl := List.eq_nil_of_length_eq_zero (Nat.le_zero.mp hdepth)
    intro name trees hlookup
    contradiction
  | succ depth ih =>
    intro name trees hlookup machine hready
    obtain ⟨body, before, hbody, hspans, htrees, hbefore, hlt⟩ :=
      hready.standFor.exists_body hlookup
    -- The body sees fewer mixins than there are, so it can be run at one depth less.
    have hready' : machine.IsReady setting before trees := { hready with standFor := hbefore }
    obtain ⟨n, hrun⟩ := Statement.runAll_builds (ih (by omega)) body hspans htrees machine hready'
    exact ⟨body, hbody, n, by rw [← hrun, ← runBlock_eq]; rfl⟩

/-- A style sheet builds the trees that it stands for. -/
theorem Statement.run_sheet {mixins : Expansions} {depth : Nat} {trees : List RuleTree}
    {statements : List Statement} (hspans : HaveSpans setting statements)
    (hsheet : sheet? mixins statements = some trees)
    (hdepth : mixins.length + definitionsIn statements ≤ depth) {machine : Machine σ}
    (hready : machine.IsReady setting mixins trees) :
    ∃ bodies n, Statement.runAll setting (setting.runMixin depth) statements machine =
      .ok () { (machine.absorb trees).waited setting n with mixins := bodies } := by
  fun_induction sheet? mixins statements generalizing trees machine with
  | case1 mixins =>
    obtain rfl := Option.some.inj hsheet
    rw [machine.absorb_nil]
    exact ⟨machine.mixins, 0, rfl⟩
  | case2 => contradiction
  | case3 mixins range name body statements hlookup ih =>
    obtain ⟨expansion, hexpansion, hsheet⟩ := Option.bind_eq_some_iff.mp hsheet
    have hfresh : mixins.lookup name = none := Option.not_isSome_iff_eq_none.mp hlookup
    let defined : Machine σ :=
      { machine.polled setting with mixins := machine.mixins.insert name body }
    have hstand : StandFor setting defined.mixins ((name, expansion) :: mixins) := by
      refine .cons ?_ (forall_nodes_inner hspans) hexpansion (hready.standFor.insert hfresh body)
      rw [Bindings.get?_insert, if_pos rfl]
    have hready' : defined.IsReady setting ((name, expansion) :: mixins) trees :=
      ⟨(hready.waited 1).goes, hstand, hready.placed, hready.within⟩
    have hrun : (defineMixin range name body).run setting (setting.runMixin depth) machine =
        .ok () defined := by
      rw [run, bind_of_ok (Machine.check_of_false (hready.goes 1))]
      rfl
    have hdepth' : ((name, expansion) :: mixins).length + definitionsIn statements ≤ depth := by
      rw [definitionsIn, definitions] at hdepth
      rw [List.length_cons]
      omega
    obtain ⟨bodies, n, hruns⟩ := ih expansion (forall_nodes_rest hspans) hsheet hdepth' hready'
    exact ⟨bodies, n + 1, by rw [runAll, bind_of_ok hrun, hruns]; rfl⟩
  | case4 mixins s statements hother ih =>
    obtain ⟨first, hfirst, hsheet⟩ := Option.bind_eq_some_iff.mp hsheet
    obtain ⟨rest, hrest, hsheet⟩ := Option.bind_eq_some_iff.mp hsheet
    obtain rfl := Option.some.inj hsheet
    have hmixins : BodiesBuild setting (setting.runMixin depth) mixins :=
      bodiesBuild_runMixin (Nat.le_of_add_right_le hdepth)
    obtain ⟨m, hrun⟩ :=
      run_builds hmixins s (forall_nodes_first hspans) hfirst machine hready.of_append
    rw [definitionsIn] at hdepth
    obtain ⟨bodies, n, hruns⟩ :=
      ih (forall_nodes_rest hspans) hrest (by omega) (hready.absorb.waited m)
    refine ⟨bodies, n + m, ?_⟩
    rw [runAll, bind_of_ok hrun, hruns, ← Machine.absorb_absorb hready.placed,
      ← Machine.waited_waited]
    rfl

/-- A style sheet without declarations outside of rules evaluates to the text of its trees. -/
theorem evaluate_sheet {trees : List RuleTree} {statements : List Statement}
    (hspans : Statement.HaveSpans setting statements)
    (hsheet : Statement.sheet? [] statements = some trees)
    (hrules : ∀ tree ∈ trees, tree.isRule = true) {host : σ}
    (hgoes : ∀ n, setting.isCancelled (setting.meanwhile^[n] host) = false) :
    ∃ machine n, evaluate setting statements { host := host } = .ok (css trees) machine ∧
      machine.host = setting.meanwhile^[n] host := by
  have hready : Machine.IsReady setting [] trees { host := host } :=
    ⟨hgoes, .nil, fun _ h => by contradiction, fun _ => hrules⟩
  have hdepth : ([] : Expansions).length + Statement.definitionsIn statements ≤
      Statement.definitionsIn statements + recursionAllowance := by
    rw [List.length_nil, Nat.zero_add]
    exact Nat.le_add_right _ _
  obtain ⟨bodies, n, hrun⟩ := Statement.run_sheet hspans hsheet hdepth hready
  let last : Machine σ :=
    { (Machine.absorb trees { host := host }).waited setting n with mixins := bodies }
  have hlast : (last.polled setting).rules.toList = flattenAll none trees := by
    simp [last, Machine.polled, Machine.waited, Machine.absorb, CssRule.extendAt]
  have hhost : (last.polled setting).host = setting.meanwhile^[n + 1] host :=
    (Function.iterate_succ_apply' ..).symm
  have hend : setting.isCancelled (last.polled setting).host = false := by rw [hhost, hgoes]
  refine ⟨last.polled setting, n + 1, ?_, hhost⟩
  rw [evaluate, runBlock_eq, bind_of_ok hrun, bind_of_ok (Machine.check_of_false hend), get_bind,
    hlast, ← css_eq]
  rfl

end Stylesheet
