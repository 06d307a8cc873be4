import Stylesheet.Proofs.Evaluation.Frame
import Stylesheet.Proofs.Evaluation.Mirroring

/-!
# Mixins and the scopes of their callers

An inclusion neither reads nor changes the blocks of its caller, and does not change the globals:
what it does is the same under all blocks, and all scopes are afterwards what they were before, in
success and in failure (`inclusion_isolated`).
-/

namespace Stylesheet

variable {σ : Type} {setting : Setting σ} {runMixin : List Statement → Run σ Unit} {range : Range}
  {name : String} {machine machine' : Machine σ}

/-! ## Machines under other blocks -/

namespace Machine

/-- The machines are the same apart from the open blocks. Tables are the same if they give the same
answers. -/
structure SameOutside (machine machine' : Machine σ) : Prop where
  host_eq : machine'.host = machine.host
  globals (name : String) :
    machine'.scopes.globals.get? name = machine.scopes.globals.get? name
  mixins (name : String) : machine'.mixins.get? name = machine.mixins.get? name
  rules_eq : machine'.rules = machine.rules
  selectors_eq : machine'.selectors = machine.selectors
  currentRule_eq : machine'.currentRule = machine.currentRule
  stack_eq : machine'.stack = machine.stack

/-- The machine under other blocks. -/
def withBlocks (blocks : List (Bindings Value)) (machine : Machine σ) : Machine σ :=
  { machine with scopes := { machine.scopes with locals := blocks } }

theorem SameOutside.trans {a b c : Machine σ} (hab : a.SameOutside b) (hbc : b.SameOutside c) :
    a.SameOutside c where
  host_eq := hbc.host_eq.trans hab.host_eq
  globals name := (hbc.globals name).trans (hab.globals name)
  mixins name := (hbc.mixins name).trans (hab.mixins name)
  rules_eq := hbc.rules_eq.trans hab.rules_eq
  selectors_eq := hbc.selectors_eq.trans hab.selectors_eq
  currentRule_eq := hbc.currentRule_eq.trans hab.currentRule_eq
  stack_eq := hbc.stack_eq.trans hab.stack_eq

theorem sameOutside_withBlocks (blocks : List (Bindings Value)) (machine : Machine σ) :
    machine.SameOutside (machine.withBlocks blocks) :=
  ⟨rfl, fun _ => rfl, fun _ => rfl, rfl, rfl, rfl, rfl⟩

end Machine

/-! ## Inclusions -/

/-- Blocks around an inclusion are not seen by it, and are there again behind it. -/
theorem Statement.run_includeMixin_withBlocks (blocks : List (Bindings Value)) :
    SameOutcome (fun last last' => last' = last.withBlocks blocks)
      ((Statement.includeMixin range name).run setting runMixin machine)
      ((Statement.includeMixin range name).run setting runMixin (machine.withBlocks blocks)) := by
  have hpolled : (machine.withBlocks blocks).polled setting =
      (machine.polled setting).withBlocks blocks := rfl
  rw [run_includeMixin, run_includeMixin, hpolled]
  generalize machine.polled setting = machine
  by_cases hcancelled : setting.isCancelled machine.host = true
  · have hcancelled' : setting.isCancelled (machine.withBlocks blocks).host = true := hcancelled
    rw [if_pos hcancelled, if_pos hcancelled']
    exact ⟨rfl, rfl⟩
  · have hgoes : ¬setting.isCancelled (machine.withBlocks blocks).host = true := hcancelled
    rw [if_neg hcancelled, if_neg hgoes]
    cases setting.span range with
    | error error => exact ⟨rfl, rfl⟩
    | ok span =>
      have hmixins : (machine.withBlocks blocks).mixins = machine.mixins := rfl
      dsimp only
      rw [hmixins]
      cases machine.mixins.get? name with
      | none => exact ⟨rfl, rfl⟩
      | some body =>
        have henter : (machine.withBlocks blocks).enterMixin name span =
            machine.enterMixin name span := rfl
        dsimp only
        rw [Machine.bracket, Machine.bracket, henter]
        cases runMixin body (machine.enterMixin name span) with
        | ok a last => exact ⟨rfl, rfl⟩
        | error error last => exact ⟨rfl, rfl⟩

/-- All scopes are behind an inclusion what they were before it. -/
theorem Statement.scopes_after_includeMixin (setting : Setting σ) (depth : Nat) (range : Range)
    (name : String) (machine : Machine σ) :
    (Machine.after ((Statement.includeMixin range name).run setting (setting.runMixin depth))
      machine).scopes = machine.scopes := by
  have hpolled : machine.scopes = (machine.polled setting).scopes := rfl
  rw [Machine.after, run_includeMixin, hpolled]
  generalize machine.polled setting = machine
  by_cases hcancelled : setting.isCancelled machine.host = true
  · rw [if_pos hcancelled]
  · rw [if_neg hcancelled]
    cases setting.span range with
    | error error => rfl
    | ok span =>
      dsimp only
      cases machine.mixins.get? name with
      | none => rfl
      | some body =>
        -- The block of the mixin is open all the time, so its body cannot reach the globals.
        have hbody := runMixin_keeps setting Machine.frames_isKept depth body
          (machine.enterMixin name span)
        have hglobals : _ = machine.scopes.globals := hbody.globals_eq (List.cons_ne_nil _ _)
        rw [Machine.after] at hglobals
        dsimp only
        rw [Machine.bracket]
        cases hrun : setting.runMixin depth body (machine.enterMixin name span) with
        | ok a last =>
          rw [hrun] at hglobals
          exact congrArg (Scopes.mk · machine.scopes.locals) hglobals
        | error error last =>
          rw [hrun] at hglobals
          exact congrArg (Scopes.mk · machine.scopes.locals) hglobals

namespace Machine

/-- Under the same blocks, machines that are the same otherwise are both in step with one. -/
theorem SameOutside.mirrors (h : machine.SameOutside machine') :
    Machine.Mirrors id Eq machine.stack (machine'.withBlocks machine.scopes.locals) machine where
  host := h.host_eq
  globals name := (h.globals name).symm
  locals := rfl
  mixins name := (h.mixins name).symm
  rules := h.rules_eq.symm
  selectors := h.selectors_eq.symm
  currentRule := h.currentRule_eq.symm
  stack_eq := (CallStack.mapSpan_id _).trans h.stack_eq

theorem SameOutside.of_mirrors {stack : CallStack} {middle : Machine σ}
    (h : machine.Mirrors id Eq stack middle) (h' : machine'.Mirrors id Eq stack middle) :
    machine.SameOutside machine' where
  host_eq := h'.host.trans h.host.symm
  globals name := (h'.globals name).symm.trans (h.globals name)
  mixins name := (h'.mixins name).symm.trans (h.mixins name)
  rules_eq := h'.rules.symm.trans h.rules
  selectors_eq := h'.selectors.symm.trans h.selectors
  currentRule_eq := h'.currentRule.symm.trans h.currentRule
  stack_eq := by
    rw [← machine.stack.mapSpan_id, ← machine'.stack.mapSpan_id, h.stack_eq, h'.stack_eq]

end Machine

/-- Two machines that differ in the blocks around an inclusion, and in nothing else, have the same
outcome of it: the same success or the same error, with the host in the same state, so that the same
was said to it, and the same rules and mixins. In each of the machines all scopes are afterwards
what they were before, in success and in failure. -/
theorem inclusion_isolated (setting : Setting σ) (depth : Nat) (range : Range) (name : String)
    {machine machine' : Machine σ} (h : machine.SameOutside machine') :
    let run := (Statement.includeMixin range name).run setting (setting.runMixin depth)
    SameOutcome Machine.SameOutside (run machine) (run machine') ∧
      (Machine.after run machine).scopes = machine.scopes ∧
      (Machine.after run machine').scopes = machine'.scopes := by
  intro run
  refine ⟨?_, Statement.scopes_after_includeMixin setting depth range name machine,
    Statement.scopes_after_includeMixin setting depth range name machine'⟩
  have hself : machine.SameOutside machine := ⟨rfl, fun _ => rfl, fun _ => rfl, rfl, rfl, rfl, rfl⟩
  have hmixin := runMixin_mirrors setting.mirrors_self depth
  -- Both machines are compared under the blocks of the first one.
  have hrun := Statement.run_mirrors setting.mirrors_self hmixin hself.mirrors
    (.includeMixin range name)
  have hrun' := Statement.run_mirrors setting.mirrors_self hmixin h.mirrors
    (.includeMixin range name)
  have hsame : SameOutcome Machine.SameOutside (run machine)
      (run (machine'.withBlocks machine.scopes.locals)) := by
    apply (hrun.sameOutcome hrun').mono
    intro last last' hlast
    obtain ⟨middle, hmirrors, hmirrors'⟩ := hlast
    exact .of_mirrors hmirrors hmirrors'
  have hblocks : SameOutcome (fun last last' => last' = last.withBlocks machine'.scopes.locals)
      (run (machine'.withBlocks machine.scopes.locals)) (run machine') :=
    Statement.run_includeMixin_withBlocks machine'.scopes.locals
  apply hsame.trans hblocks fun _ _ _ => Eq.trans
  intro a b c hab hbc
  rw [hbc]
  exact hab.trans (b.sameOutside_withBlocks machine'.scopes.locals)

/-- A mixin assigns to a name that one caller has in an open block and another one has not. Neither
of them sees anything of it. -/
theorem inclusion_isolated_name :
    let setting : Setting Unit :=
      ⟨LineIndex.ofString "@include m;", none, false, fun _ => pure (), fun _ => false, id⟩
    let body : List Statement := [.assign ⟨0, 0⟩ "a" (.text ⟨0, 0⟩ "inner" false)]
    let block : Bindings Value := Bindings.insert {} "a" (.text "outer" false)
    let bare : Machine Unit := { host := (), mixins := Bindings.insert {} "m" body }
    let inside := bare.withBlocks [block]
    let run := (Statement.includeMixin ⟨0, 10⟩ "m").run setting (setting.runMixin 1)
    bare.SameOutside inside ∧ SameOutcome Machine.SameOutside (run bare) (run inside) ∧
      (Machine.after run bare).scopes.get? "a" = none ∧
      (Machine.after run inside).scopes.get? "a" = some (.text "outer" false) := by
  intro setting body block bare inside run
  have hsame : bare.SameOutside inside := bare.sameOutside_withBlocks [block]
  obtain ⟨houtcome, hbare, hinside⟩ := inclusion_isolated setting 1 ⟨0, 10⟩ "m" hsame
  exact ⟨hsame, houtcome, by rw [hbare]; rfl, by rw [hinside]; rfl⟩

end Stylesheet
