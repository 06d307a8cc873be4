import Stylesheet.Proofs.Evaluation.StatementFrame

/-!
# The rule under way

The machine keeps apart the index of the rule under way and the selectors of all rules under way.
The two agree at every moment of a run, in success and in failure: the index is that of a rule with
the innermost selector, whatever rules have been added since and in whatever mixin the run is. So a
declaration goes to the innermost of the rules around it (`declaration_innermost`).
-/

namespace Stylesheet

variable {σ : Type}

/-- The resolved selectors of rules inside rules whose selectors are resolved, innermost first.
The ones to be resolved are as written, outermost first. -/
def resolveWithin (outer : List String) (written : List String) : List String :=
  written.foldl (fun outer selector => resolveSelector outer.head? selector :: outer) outer

/-! ## Agreement -/

/-- The index of the rule under way agrees with the selectors under way. -/
structure Machine.IsInnermost (machine : Machine σ) : Prop where
  isSome_iff : machine.currentRule.isSome ↔ machine.selectors ≠ []
  selector_eq : ∀ i, machine.currentRule = some i →
    ∃ hi : i < machine.rules.size, machine.selectors.head? = some machine.rules[i].selector

namespace Machine.IsInnermost

variable {machine last : Machine σ}

theorem start (host : σ) : ({ host := host } : Machine σ).IsInnermost := by
  constructor
  · simp
  · simp

theorem enterRule (machine : Machine σ) (selector : String) :
    (machine.enterRule selector).IsInnermost := by
  constructor
  · simp [Machine.enterRule]
  · intro i hi
    obtain rfl : machine.rules.size = i := Option.some.inj hi
    simp [Machine.enterRule]

theorem enterMixin (h : machine.IsInnermost) (name : String) (callSite : Span) :
    (machine.enterMixin name callSite).IsInnermost :=
  ⟨h.isSome_iff, h.selector_eq⟩

/-- What a run adds after the rule under way leaves that rule where it is, under its selector. -/
theorem of_grown (h : machine.IsInnermost) (hframes : Machine.Frames machine last)
    (hgrown : CssRule.Grown machine.rules last.rules) : last.IsInnermost := by
  constructor
  · rw [hframes.currentRule_eq, hframes.selectors_eq]
    exact h.isSome_iff
  · intro i hcurrent
    rw [hframes.currentRule_eq] at hcurrent
    obtain ⟨hi, hselector⟩ := h.selector_eq i hcurrent
    obtain ⟨more, hmore⟩ := hgrown i _ (Array.getElem?_eq_getElem hi)
    obtain ⟨hi', hrule⟩ := Array.getElem?_eq_some_iff.mp hmore
    exact ⟨hi', by rw [hframes.selectors_eq, hselector, hrule]⟩

/-- Agreement is kept by whatever keeps the frame and only adds to the rules. -/
theorem after {α : Type} {run : Run σ α} (hframes : Machine.Keeps Machine.Frames run)
    (hgrows : Machine.Keeps Machine.Grows run) (h : machine.IsInnermost) :
    (Machine.after run machine).IsInnermost :=
  h.of_grown (hframes machine) (hgrows machine).rules

theorem run (h : machine.IsInnermost) (setting : Setting σ) (depth : Nat) (s : Statement) :
    (Machine.after (s.run setting (setting.runMixin depth)) machine).IsInnermost :=
  h.after (s.run_keeps Machine.frames_isKept (runMixin_keeps setting Machine.frames_isKept depth))
    (s.run_keeps Machine.grows_isKept (runMixin_keeps setting Machine.grows_isKept depth))

theorem runBlock (h : machine.IsInnermost) (setting : Setting σ) (depth : Nat)
    (statements : List Statement) :
    (Machine.after (runBlock setting depth statements) machine).IsInnermost := by
  rw [runBlock_eq]
  exact h.after
    (Statement.runAll_keeps Machine.frames_isKept
      (runMixin_keeps setting Machine.frames_isKept depth) statements)
    (Statement.runAll_keeps Machine.grows_isKept
      (runMixin_keeps setting Machine.grows_isKept depth) statements)

end Machine.IsInnermost

/-! ## Moments -/

namespace Statement

/-- A run of statements comes to a point between statements, inside rules with selectors as
written, outermost first, and with the statements of the innermost body that are still to run. -/
inductive Arrives (setting : Setting σ) :
    Nat → List Statement → Machine σ → List String → List Statement → Machine σ → Prop where
  | here {depth : Nat} {statements : List Statement} {machine : Machine σ} :
      Arrives setting depth statements machine [] statements machine
  | later {depth : Nat} {s : Statement} {statements rest : List Statement} {written : List String}
      {machine machine₁ machine' : Machine σ}
      (hrun : s.run setting (setting.runMixin depth) machine = .ok () machine₁)
      (h : Arrives setting depth statements machine₁ written rest machine') :
      Arrives setting depth (s :: statements) machine written rest machine'
  | inRule {depth : Nat} {range : Range} {selector : String} {body statements rest : List Statement}
      {written : List String} {machine machine' : Machine σ}
      (hgoes : setting.isCancelled (machine.polled setting).host = false)
      (h : Arrives setting depth body
        ((machine.polled setting).enterRule (resolveSelector machine.selectors.head? selector))
        written rest machine') :
      Arrives setting depth (.rule range selector body :: statements) machine (selector :: written)
        rest machine'
  | inMixin {depth : Nat} {range : Range} {name : String} {body statements rest : List Statement}
      {written : List String} {machine machine' : Machine σ} {callSite : Span}
      (hgoes : setting.isCancelled (machine.polled setting).host = false)
      (hspan : setting.span range = .ok callSite)
      (hbody : machine.mixins.get? name = some body)
      (h : Arrives setting depth body ((machine.polled setting).enterMixin name callSite) written
        rest machine') :
      Arrives setting (depth + 1) (.includeMixin range name :: statements) machine written rest
        machine'

variable {setting : Setting σ} {depth : Nat} {statements rest : List Statement}
  {written : List String} {machine machine' : Machine σ}

/-- A run arrives at whatever statement it comes to. -/
theorem Comes.exists_arrives {t : Statement}
    (h : Comes setting depth statements machine t machine') :
    ∃ written rest, Arrives setting depth statements machine written (t :: rest) machine' := by
  induction h with
  | here => exact ⟨[], _, .here⟩
  | later hrun h ih =>
    obtain ⟨written, rest, ih⟩ := ih
    exact ⟨written, rest, .later hrun ih⟩
  | inRule hgoes h ih =>
    obtain ⟨written, rest, ih⟩ := ih
    exact ⟨_, rest, .inRule hgoes ih⟩
  | inMixin hgoes hspan hbody h ih =>
    obtain ⟨written, rest, ih⟩ := ih
    exact ⟨written, rest, .inMixin hgoes hspan hbody ih⟩

/-- The selectors under way are those of the rules that the run is in, and of no others. -/
theorem Arrives.selectors_eq (h : Arrives setting depth statements machine written rest machine') :
    machine'.selectors = resolveWithin machine.selectors written := by
  induction h with
  | here => rfl
  | @later depth s _ _ _ machine _ _ hrun h ih =>
    have hframes : Machine.Frames machine
        (Machine.after (s.run setting (setting.runMixin depth)) machine) :=
      s.run_keeps Machine.frames_isKept (runMixin_keeps setting Machine.frames_isKept depth) machine
    rw [Machine.after, hrun] at hframes
    rw [ih, hframes.selectors_eq]
  | inRule hgoes h ih => exact ih
  | inMixin hgoes hspan hbody h ih => exact ih

theorem Arrives.isInnermost (h : Arrives setting depth statements machine written rest machine')
    (hstart : machine.IsInnermost) : machine'.IsInnermost := by
  induction h with
  | here => exact hstart
  | @later depth s _ _ _ machine _ _ hrun h ih =>
    have hnext := hstart.run setting depth s
    rw [Machine.after, hrun] at hnext
    exact ih hnext
  | inRule hgoes h ih => exact ih (.enterRule _ _)
  | @inMixin _ _ _ _ _ _ _ machine _ _ hgoes hspan hbody h ih =>
    have hpolled : (machine.polled setting).IsInnermost := ⟨hstart.isSome_iff, hstart.selector_eq⟩
    exact ih (hpolled.enterMixin _ _)

/-! ## Declarations -/

/-- What a declaration does inside a rule: its value is computed first, and goes to that rule. -/
theorem run_declaration (runMixin : List Statement → Run σ Unit) (range : Range) (property : String)
    (e : Expr) {i : Nat} (hgoes : setting.isCancelled (machine.polled setting).host = false)
    (hcurrent : machine.currentRule = some i) :
    (declaration range property e).run setting runMixin machine =
      match e.eval setting machine.scopes machine.stack (machine.polled setting).host with
      | .ok value host => .ok () ({ machine with host := host }.declare i property value)
      | .error error host => .error error { machine with host := host } := by
  have hcurrent' : (machine.polled setting).currentRule = some i := hcurrent
  have hvalue : setting.value e (machine.polled setting) =
      Machine.onHost (e.eval setting machine.scopes machine.stack) (machine.polled setting) := rfl
  have hrun : (declaration range property e).run setting runMixin machine =
      (setting.value e >>= fun value => modify (Machine.declare i property value))
        (machine.polled setting) := by
    rw [run, bind_of_ok (Machine.check_of_false hgoes), get_bind, hcurrent']
  rw [Machine.onHost] at hvalue
  rw [hrun]
  cases heval : e.eval setting machine.scopes machine.stack (machine.polled setting).host with
  | ok value host =>
    rw [heval] at hvalue
    rw [bind_of_ok hvalue]
    rfl
  | error error host =>
    rw [heval] at hvalue
    rw [bind_of_error hvalue]
    rfl

/-- Outside of rules a declaration fails, and the machine stays as it is. -/
theorem run_declaration_of_none (runMixin : List Statement → Run σ Unit) (range : Range)
    (property : String) (e : Expr)
    (hgoes : setting.isCancelled (machine.polled setting).host = false)
    (hcurrent : machine.currentRule = none) :
    (declaration range property e).run setting runMixin machine =
      match setting.span range with
      | .ok span => .error (.operation .declarationOutsideRule span) (machine.polled setting)
      | .error error => .error error (machine.polled setting) := by
  have hcurrent' : (machine.polled setting).currentRule = none := hcurrent
  rw [run, bind_of_ok (Machine.check_of_false hgoes), get_bind, hcurrent']
  cases setting.span range <;> rfl

end Statement

/-- Two lists of rules are the same but for one rule, which has one more declaration at its end. -/
structure CssRule.Declared (i : Nat) (property text : String) (before after : Array CssRule) :
    Prop where
  size_eq : after.size = before.size
  rule_eq : after[i]? = before[i]?.map fun rule =>
    { rule with declarations := rule.declarations ++ [(property, text)] }
  others_eq : ∀ j, j ≠ i → after[j]? = before[j]?

theorem Machine.declared_declare (machine : Machine σ) (i : Nat) (property : String)
    (value : Value) :
    CssRule.Declared i property value.display machine.rules
      (machine.declare i property value).rules where
  size_eq := Array.size_modify
  rule_eq := by
    rw [Machine.declare, Array.getElem?_modify, if_pos rfl]
    rfl
  others_eq j hj := by rw [Machine.declare, Array.getElem?_modify, if_neg (Ne.symm hj)]

open Statement

/-- The index of the rule under way agrees with the selectors under way wherever a run arrives and
after whatever runs there, in success and in failure. A declaration inside rules, also in mixins
that are included there, becomes the last one of a rule with the selector of the innermost one, and
no other rule changes. -/
theorem declaration_innermost (setting : Setting σ) (depth : Nat) (program : List Statement)
    (host : σ) :
    let start : Machine σ := { host := host }
    (∀ written rest machine, Arrives setting depth program start written rest machine →
      machine.selectors = resolveWithin [] written ∧ machine.IsInnermost ∧
        (∀ (s : Statement) depth',
          (Machine.after (s.run setting (setting.runMixin depth')) machine).IsInnermost) ∧
        ∀ range property e runMixin, setting.isCancelled (machine.polled setting).host = false →
          match (resolveWithin [] written).head? with
          | none =>
            (declaration range property e).run setting runMixin machine =
              match setting.span range with
              | .ok span =>
                .error (.operation .declarationOutsideRule span) (machine.polled setting)
              | .error error => .error error (machine.polled setting)
          | some selector =>
            ∃ i, ∃ hi : i < machine.rules.size, machine.currentRule = some i ∧
              machine.rules[i].selector = selector ∧
              match e.eval setting machine.scopes machine.stack (machine.polled setting).host with
              | .ok value host =>
                let last := { machine with host := host }.declare i property value
                (declaration range property e).run setting runMixin machine = .ok () last ∧
                  CssRule.Declared i property value.display machine.rules last.rules
              | .error error host =>
                (declaration range property e).run setting runMixin machine =
                  .error error { machine with host := host }) ∧
    (∀ s machine, Comes setting depth program start s machine →
      ∃ written rest, Arrives setting depth program start written (s :: rest) machine) ∧
    (Machine.after (runBlock setting depth program) start).IsInnermost := by
  intro start
  have hstart : start.IsInnermost := .start host
  refine ⟨fun written rest machine h => ?_, fun s machine h => h.exists_arrives,
    hstart.runBlock setting depth program⟩
  have hselectors : machine.selectors = resolveWithin [] written := h.selectors_eq
  have hinner := h.isInnermost hstart
  refine ⟨hselectors, hinner, fun s depth' => hinner.run setting depth' s, ?_⟩
  intro range property e runMixin hgoes
  rw [← hselectors]
  obtain hcurrent | ⟨i, hcurrent⟩ := machine.currentRule.eq_none_or_eq_some
  · have hnone : machine.selectors = [] := by simpa [hcurrent] using hinner.isSome_iff
    rw [hnone]
    exact run_declaration_of_none runMixin range property e hgoes hcurrent
  · obtain ⟨hi, hselector⟩ := hinner.selector_eq i hcurrent
    rw [hselector]
    have hrun := run_declaration runMixin range property e hgoes hcurrent
    refine ⟨i, hi, hcurrent, rfl, ?_⟩
    cases heval : e.eval setting machine.scopes machine.stack (machine.polled setting).host with
    | ok value host =>
      rw [heval] at hrun
      exact ⟨hrun, Machine.declared_declare { machine with host := host } i property value⟩
    | error error host =>
      rw [heval] at hrun
      exact hrun

/-- A mixin that declares after a rule of its own does so in the rule where it is included. -/
theorem declaration_innermost_in_mixin :
    let setting : Setting Unit :=
      ⟨LineIndex.ofString "@mixin m { b { c: red; } d: blue; } a { @include m; }",
        none, false, fun _ => pure (), fun _ => false, id⟩
    let nested := Statement.rule ⟨11, 24⟩ "b"
      [.declaration ⟨15, 21⟩ "c" (.text ⟨18, 21⟩ "red" false)]
    let later := Statement.declaration ⟨25, 32⟩ "d" (.text ⟨28, 32⟩ "blue" false)
    let program := [.defineMixin ⟨0, 35⟩ "m" [nested, later],
      .rule ⟨36, 53⟩ "a" [.includeMixin ⟨40, 50⟩ "m"]]
    ∃ machine, Arrives setting 1 program { host := () } ["a"] [later] machine ∧
      machine.rules = #[⟨"a", []⟩, ⟨"a b", [("c", "red")]⟩] ∧ machine.IsInnermost ∧
      ∃ i last, machine.currentRule = some i ∧
        later.run setting (setting.runMixin 0) machine = .ok () last ∧
        CssRule.Declared i "d" "blue" machine.rules last.rules ∧
        last.rules = #[⟨"a", [("d", "blue")]⟩, ⟨"a b", [("c", "red")]⟩] := by
  intro setting nested later program
  have hsome : (setting.span ⟨40, 50⟩).isOk = true := by decide +kernel
  cases hspan : setting.span ⟨40, 50⟩ with
  | error error =>
    rw [hspan] at hsome
    contradiction
  | ok callSite =>
    have harrives : Arrives setting 1 program { host := () } ["a"] [later] _ :=
      .later rfl (.inRule rfl (.inMixin rfl hspan rfl (.later rfl .here)))
    obtain ⟨-, hinner, -, hdeclare⟩ :=
      (declaration_innermost setting 1 program ()).1 _ _ _ harrives
    obtain ⟨i, -, hcurrent, -, hlast⟩ :=
      hdeclare ⟨25, 32⟩ "d" (.text ⟨28, 32⟩ "blue" false) (setting.runMixin 0) rfl
    obtain rfl : 0 = i := Option.some.inj hcurrent
    exact ⟨_, harrives, rfl, hinner, 0, _, rfl, hlast.1, hlast.2, rfl⟩

end Stylesheet
