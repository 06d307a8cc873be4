import Mathlib.Data.List.Forall2
import Stylesheet.Proofs.Evaluation.Frame

/-!
# The frame of a statement

What a statement cannot change. Rules and their declarations are only appended; open blocks keep
their names, and at most the innermost one gains some (`Machine.grows_isKept`). With the frame of a
run that makes the frame of a statement, in success and in failure (`statement_keepsFrame`).
-/

namespace Stylesheet

variable {σ : Type}

/-! ## The names of open blocks -/

namespace Bindings

variable {α : Type}

/-- Tables of the same names, whatever these stand for. -/
def SameNames (before after : Bindings α) : Prop :=
  ∀ name, after.contains name = before.contains name

theorem contains_insert (bindings : Bindings α) (name other : String) (a : α) :
    (bindings.insert name a).contains other =
      (decide (other = name) || bindings.contains other) := by
  by_cases h : other = name <;> simp [contains, get?_insert, h]

end Bindings

namespace Scopes

/-- The open blocks, and the globals around them. -/
def all (scopes : Scopes) : List (Bindings Value) := scopes.locals ++ [scopes.globals]

/-- Scopes before and after a run: the same number of them, with the same names. Only the innermost
one may have gained names, of those that can be gained. -/
inductive Gain (gained : String → Prop) : List (Bindings Value) → List (Bindings Value) → Prop where
  | none : Gain gained [] []
  | innermost {scope scope' : Bindings Value} {outer outer' : List (Bindings Value)}
      (hkept : ∀ name, scope.contains name = true → scope'.contains name = true)
      (hnew : ∀ name, scope'.contains name = true → scope.contains name = true ∨ gained name)
      (houter : List.Forall₂ Bindings.SameNames outer outer') :
      Gain gained (scope :: outer) (scope' :: outer')

variable {gained : String → Prop} {a b c : List (Bindings Value)}

theorem Gain.of_sameNames (h : List.Forall₂ Bindings.SameNames a b) : Gain gained a b := by
  cases h with
  | nil => exact .none
  | cons hscope houter =>
    refine .innermost (fun name hname => ?_) (fun name hname => .inl ?_) houter
    · rw [hscope name, hname]
    · rw [← hscope name, hname]

theorem sameNames_refl (scopes : List (Bindings Value)) :
    List.Forall₂ Bindings.SameNames scopes scopes :=
  List.forall₂_same.mpr fun _ _ _ => rfl

theorem sameNames_trans (hab : List.Forall₂ Bindings.SameNames a b)
    (hbc : List.Forall₂ Bindings.SameNames b c) : List.Forall₂ Bindings.SameNames a c := by
  induction hab generalizing c with
  | nil => exact hbc
  | cons hscope houter ih =>
    cases hbc with
    | cons hscope' houter' =>
      exact .cons (fun name => (hscope' name).trans (hscope name)) (ih houter')

theorem Gain.refl (scopes : List (Bindings Value)) : Gain gained scopes scopes :=
  .of_sameNames (sameNames_refl scopes)

theorem Gain.mono {gained' : String → Prop} (h : Gain gained a b)
    (himp : ∀ name, gained name → gained' name) : Gain gained' a b := by
  cases h with
  | none => exact .none
  | innermost hkept hnew houter =>
    exact .innermost hkept (fun name hname => (hnew name hname).imp_right (himp name)) houter

theorem Gain.trans (hab : Gain gained a b) (hbc : Gain gained b c) : Gain gained a c := by
  cases hab with
  | none => exact hbc
  | innermost hkept hnew houter =>
    cases hbc with
    | innermost hkept' hnew' houter' =>
      refine .innermost (fun name hname => hkept' name (hkept name hname)) (fun name hname => ?_)
        (sameNames_trans houter houter')
      rcases hnew' name hname with hname | hname
      · exact hnew name hname
      · exact .inr hname

/-- A scope around all others stays as it is. -/
theorem Gain.concat (h : Gain gained a b) (outermost : Bindings Value) :
    Gain gained (a ++ [outermost]) (b ++ [outermost]) := by
  cases h with
  | none => exact .refl _
  | innermost hkept hnew houter =>
    exact .innermost hkept hnew (List.rel_append houter (sameNames_refl [outermost]))

/-- Where no name can be gained, none is. -/
theorem Gain.sameNames (h : Gain gained a b) (hgained : ∀ name, ¬gained name) :
    List.Forall₂ Bindings.SameNames a b := by
  cases h with
  | none => exact .nil
  | innermost hkept hnew houter =>
    refine .cons (fun name => ?_) houter
    exact Bool.eq_iff_iff.mpr ⟨fun hname => (hnew name hname).resolve_right (hgained name),
      hkept name⟩

/-- What is inside a block of its own leaves the names of the blocks around it alone. -/
theorem Gain.of_enter {last : Scopes} {scopes : Scopes}
    (h : Gain gained scopes.enter.locals last.locals) :
    List.Forall₂ Bindings.SameNames scopes.locals last.leave.locals := by
  rw [enter] at h
  rw [leave]
  generalize last.locals = blocks at h ⊢
  cases h with
  | innermost _ _ houter => exact houter

/-- Binding a name anew where it is bound adds no name anywhere. -/
theorem sameNames_rebind? {name : String} {value : Value} (h : rebind? name value a = some b) :
    List.Forall₂ Bindings.SameNames a b := by
  induction a generalizing b with
  | nil => simp [rebind?] at h
  | cons scope scopes ih =>
    rw [rebind?] at h
    split at h
    · rename_i hscope
      obtain rfl := Option.some.inj h
      refine .cons (fun other => ?_) (sameNames_refl scopes)
      rw [Bindings.contains_insert]
      by_cases hother : other = name
      · simp [hother, hscope]
      · simp [hother]
    · obtain ⟨rest, hrest, rfl⟩ := Option.map_eq_some_iff.mp h
      exact .cons (fun _ => rfl) (ih hrest)

theorem gain_insert (scope : Bindings Value) (outer : List (Bindings Value)) (name : String)
    (value : Value) : Gain (· = name) (scope :: outer) (scope.insert name value :: outer) := by
  refine .innermost (fun other hother => ?_) (fun other hother => ?_) (sameNames_refl outer)
  · rw [Bindings.contains_insert, hother, Bool.or_true]
  · rw [Bindings.contains_insert, Bool.or_eq_true, decide_eq_true_eq] at hother
    exact hother.symm

/-- An assignment adds its name to the innermost open block, if it adds it to any. -/
theorem gain_assign (scopes : Scopes) (name : String) (value : Value) :
    Gain (· = name) scopes.locals (scopes.assign name value).locals := by
  rw [assign]
  split
  · rename_i locals hlocals
    exact .of_sameNames (sameNames_rebind? hlocals)
  · rename_i scope outer _ hlocals
    rw [hlocals]
    exact gain_insert scope outer name value
  · exact .refl _

/-- Under no open block, an assignment adds its name to the globals. -/
theorem gain_all_assign {scopes : Scopes} (h : scopes.locals = []) (name : String) (value : Value) :
    Gain (· = name) scopes.all (scopes.assign name value).all := by
  rw [assign, all, all, h]
  exact gain_insert scopes.globals [] name value

/-- A variable that no open block binds has the value that it has among the globals. -/
theorem get?_of_not_contains {scopes : Scopes} {name : String}
    (h : ∀ scope ∈ scopes.locals, scope.contains name = false) :
    scopes.get? name = scopes.globals.get? name := by
  have hnone : scopes.locals.findSome? (·.get? name) = none :=
    List.findSome?_eq_none_iff.mpr fun scope hscope => by
      simpa [Bindings.contains] using h scope hscope
  rw [get?, hnone, Option.none_or]

/-- Blocks of the same names leave a variable that they do not bind to the globals. -/
theorem get?_eq_of_sameNames {scopes last : Scopes} {name : String}
    (hnames : List.Forall₂ Bindings.SameNames scopes.locals last.locals)
    (hglobals : last.globals = scopes.globals)
    (h : ∀ scope ∈ scopes.locals, scope.contains name = false) :
    last.get? name = scopes.get? name := by
  have hlast : ∀ scope ∈ last.locals, scope.contains name = false := by
    generalize scopes.locals = before at hnames h
    generalize last.locals = after at hnames
    induction hnames with
    | nil => simp
    | cons hscope _ ih =>
      rw [List.forall_mem_cons] at h ⊢
      exact ⟨(hscope name).trans h.1, ih h.2⟩
  rw [get?_of_not_contains h, get?_of_not_contains hlast, hglobals]

end Scopes

/-! ## Rules -/

/-- Rules after a run: each rule from before is in its place, with its selector and with its
declarations in front of those that it has gained. -/
def CssRule.Grown (before after : Array CssRule) : Prop :=
  ∀ (i : Nat) (rule : CssRule), before[i]? = some rule →
    ∃ more, after[i]? = some { rule with declarations := rule.declarations ++ more }

namespace CssRule.Grown

theorem refl (rules : Array CssRule) : Grown rules rules :=
  fun _ rule hrule => ⟨[], by rw [hrule, List.append_nil]⟩

theorem trans {a b c : Array CssRule} (hab : Grown a b) (hbc : Grown b c) : Grown a c := by
  intro i rule hrule
  obtain ⟨more, hmore⟩ := hab i rule hrule
  obtain ⟨still, hstill⟩ := hbc i _ hmore
  exact ⟨more ++ still, by rw [hstill, List.append_assoc]⟩

theorem push (rules : Array CssRule) (last : CssRule) : Grown rules (rules.push last) := by
  intro i rule hrule
  refine ⟨[], ?_⟩
  obtain ⟨hi, -⟩ := Array.getElem?_eq_some_iff.mp hrule
  rw [Array.getElem?_push_lt (h := hi), ← Array.getElem?_eq_getElem hi, hrule, List.append_nil]

theorem declare (rules : Array CssRule) (target : Nat) (property value : String) :
    Grown rules (rules.modify target (·.declare property value)) := by
  intro i rule hrule
  rw [Array.getElem?_modify]
  split
  · exact ⟨[(property, value)], by rw [hrule]; rfl⟩
  · exact ⟨[], by rw [hrule, List.append_nil]⟩

end CssRule.Grown

/-! ## Runs -/

/-- What a run can only add to. -/
structure Machine.Grows (before last : Machine σ) : Prop where
  names : Scopes.Gain (fun _ => True) before.scopes.locals last.scopes.locals
  rules : CssRule.Grown before.rules last.rules

/-- Every step of a run only adds to the rules and to the names of the innermost block. -/
theorem Machine.grows_isKept : IsKept (Grows (σ := σ)) where
  refl _ := ⟨.refl _, .refl _⟩
  trans hab hbc := ⟨hab.names.trans hbc.names, hab.rules.trans hbc.rules⟩
  host _ _ := ⟨.refl _, .refl _⟩
  assign machine name value :=
    ⟨(machine.scopes.gain_assign name value).mono fun _ _ => trivial, .refl _⟩
  define _ _ _ := ⟨.refl _, .refl _⟩
  declare {machine rule} _ property _ := ⟨.refl _, .declare machine.rules rule property _⟩
  inRule {machine _} _ h := ⟨.of_sameNames h.names.of_enter, .trans (.push machine.rules _) h.rules⟩
  inMixin _ _ h := ⟨.refl _, h.rules⟩

/-! ## Statements -/

namespace Statement

/-- Whether a statement assigns to a name. -/
def Assigns (name : String) : Statement → Prop
  | .assign _ target _ => name = target
  | _ => False

/-- Whether a statement is a rule. -/
def IsRule : Statement → Prop
  | .rule .. => True
  | _ => False

/-- The frame of a statement: what is as it was in the machine that it leaves, and what has been
added to. -/
structure KeepsFrame (s : Statement) (before last : Machine σ) : Prop where
  selectors_eq : last.selectors = before.selectors
  currentRule_eq : last.currentRule = before.currentRule
  stack_eq : last.stack = before.stack
  length_locals : last.scopes.locals.length = before.scopes.locals.length
  /-- Only an assignment under no open block changes the globals. -/
  globals_eq : last.scopes.globals = before.scopes.globals ∨
    (∃ name, s.Assigns name) ∧ before.scopes.locals = []
  /-- Only an assignment adds a name to a scope: its own one, to the innermost. -/
  names : Scopes.Gain (fun name => s.Assigns name) before.scopes.all last.scopes.all
  rules : CssRule.Grown before.rules last.rules
  /-- A rule changes no variables but those that the blocks around it bind. -/
  values : s.IsRule → ∀ name, last.scopes.get? name ≠ before.scopes.get? name →
    ∃ scope ∈ before.scopes.locals, scope.contains name = true

end Statement

open Machine

namespace Statement.Effect

variable {setting : Setting σ} {depth : Nat} {machine last : Machine σ} {s : Statement}

/-- The names that a statement adds to the open blocks. Inside a rule they go to the block of the
rule, which is closed again. -/
theorem gain (h : s.Effect setting (setting.runMixin depth) machine last) :
    Scopes.Gain (fun name => s.Assigns name) machine.scopes.locals last.scopes.locals := by
  cases h with
  | quiet | define | inMixin | declare => exact .refl _
  | assign _ name _ _ value => exact machine.scopes.gain_assign name value
  | inRule _ selector body host =>
    have hbody : Keeps Grows (runAll setting (setting.runMixin depth) body) :=
      runAll_keeps grows_isKept (runMixin_keeps setting grows_isKept depth) body
    have hinner := hbody ({ machine with host := host }.enterRule
      (resolveSelector machine.selectors.head? selector))
    exact .of_sameNames hinner.names.of_enter

/-- What a statement does to the globals. A rule and a mixin have a block open all the time. -/
theorem globals_eq (h : s.Effect setting (setting.runMixin depth) machine last) :
    last.scopes.globals = machine.scopes.globals ∨
      (∃ name, s.Assigns name) ∧ machine.scopes.locals = [] := by
  cases h with
  | quiet | define | declare => exact .inl rfl
  | assign _ name _ _ value =>
    by_cases hopen : machine.scopes.locals = []
    · exact .inr ⟨⟨name, rfl⟩, hopen⟩
    · exact .inl (Scopes.globals_assign hopen name value)
  | @inMixin _ name callSite body host _ =>
    have hbody := runMixin_keeps setting frames_isKept depth body
      ({ machine with host := host }.enterMixin name callSite)
    exact .inl (hbody.globals_eq (List.cons_ne_nil _ _))
  | inRule _ selector body host =>
    have hbody : Keeps Frames (runAll setting (setting.runMixin depth) body) :=
      runAll_keeps frames_isKept (runMixin_keeps setting frames_isKept depth) body
    exact .inl ((hbody _).globals_eq (List.cons_ne_nil _ _))

/-- The names that a statement adds to the scopes, of which the globals are the outermost one. -/
theorem gain_all (h : s.Effect setting (setting.runMixin depth) machine last) :
    Scopes.Gain (fun name => s.Assigns name) machine.scopes.all last.scopes.all := by
  rcases h.globals_eq with hglobals | ⟨⟨_, hassigns⟩, hclosed⟩
  · rw [Scopes.all, Scopes.all, hglobals]
    exact h.gain.concat machine.scopes.globals
  · cases h with
    | quiet => exact .refl _
    | assign _ name _ _ value => exact Scopes.gain_all_assign hclosed name value
    | define | inMixin | inRule | declare => contradiction

end Statement.Effect

/-- In success and in failure, a statement keeps its frame, from every machine and however deep
mixins may be nested. -/
theorem statement_keepsFrame (setting : Setting σ) (depth : Nat) (s : Statement)
    (machine : Machine σ) :
    s.KeepsFrame machine (after (s.run setting (setting.runMixin depth)) machine) := by
  have hframes : Keeps Frames (s.run setting (setting.runMixin depth)) :=
    s.run_keeps frames_isKept (runMixin_keeps setting frames_isKept depth)
  have hgrows : Keeps Grows (s.run setting (setting.runMixin depth)) :=
    s.run_keeps grows_isKept (runMixin_keeps setting grows_isKept depth)
  have heffect := s.effect_run setting (setting.runMixin depth) machine
  obtain ⟨hstack, hselectors, hcurrent, hlength, -⟩ := hframes machine
  refine ⟨hselectors, hcurrent, hstack, hlength, heffect.globals_eq, heffect.gain_all,
    (hgrows machine).rules, ?_⟩
  intro hrule name hchanged
  by_contra hunbound
  simp only [not_exists, not_and, Bool.not_eq_true] at hunbound
  have hnot : ∀ name, ¬s.Assigns name := by
    cases s with
    | rule => exact fun _ => id
    | _ => contradiction
  have hglobals := heffect.globals_eq.resolve_right fun h => hnot _ h.1.choose_spec
  apply hchanged
  apply Scopes.get?_eq_of_sameNames (heffect.gain.sameNames hnot) hglobals
  exact hunbound

end Stylesheet
