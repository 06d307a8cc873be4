import Mathlib.Data.Finset.Card
import Mathlib.Data.List.Chain
import Stylesheet.Proofs.Evaluation.Failures
import Stylesheet.Proofs.Evaluation.KnownMixins

/-!
# How deep mixins are nested

Which mixin an inclusion runs is known only when it runs, but it is one that the program defines,
and what its body includes is known from the program. So the inclusions under way are a path in a
graph that the program draws (`ComesIn.links`). If the graph has no cycle, then no path comes to
a mixin twice, and every run ends within as many inclusions as there are mixins
(`acyclic_mixins_end`).
-/

namespace Stylesheet

variable {σ α β : Type}

/-! ## What includes what -/

mutual

/-- The names that a statement includes. The bodies of mixins that it defines are not run with
it. -/
def Statement.includes : Statement → List String
  | .includeMixin _ name => [name]
  | .rule _ _ body => Statement.includesIn body
  | _ => []

/-- The names that statements include. -/
def Statement.includesIn : List Statement → List String
  | [] => []
  | statement :: statements => statement.includes ++ Statement.includesIn statements

end

namespace Statement

/-- Whether some definition of a mixin in a program includes another one. -/
def Needs (program : List Statement) (name other : String) : Prop :=
  ∃ range body, .defineMixin range name body ∈ nodesIn program ∧ other ∈ includesIn body

/-- Whether no mixin of a program needs itself, directly or through others. -/
def IsAcyclic (program : List Statement) : Prop :=
  ∀ name, ¬Relation.TransGen (Needs program) name name

/-- The name that a statement defines, if it defines a mixin. -/
def mixin? : Statement → Option String
  | .defineMixin _ name _ => some name
  | _ => none

/-- The names of the mixins that a program defines, in rules and in mixins as well. -/
def mixins (program : List Statement) : Finset String :=
  ((nodesIn program).filterMap mixin?).toFinset

variable {program : List Statement}

theorem name_mem_mixins {range : Range} {name : String} {body : List Statement}
    (h : .defineMixin range name body ∈ nodesIn program) : name ∈ mixins program :=
  List.mem_toFinset.mpr (List.mem_filterMap.mpr ⟨_, h, rfl⟩)

mutual

theorem length_mixin? : (s : Statement) →
    ((s :: s.inner).filterMap mixin?).length = s.definitions
  | .defineMixin _ _ body => by
    have hbody := length_mixins body
    simp [mixin?, inner, definitions, hbody, Nat.add_comm]
  | .rule _ _ body => length_mixins body
  | .assign .. | .warn .. | .debug .. | .includeMixin .. | .declaration .. => rfl

theorem length_mixins : (program : List Statement) →
    ((nodesIn program).filterMap mixin?).length = definitionsIn program
  | [] => rfl
  | s :: program => by
    have hfirst := length_mixin? s
    have hrest := length_mixins program
    rw [nodesIn, ← List.cons_append, List.filterMap_append, List.length_append, hfirst, hrest,
      definitionsIn]

end

/-- A program has no more mixins than definitions. -/
theorem card_mixins_le (program : List Statement) :
    (mixins program).card ≤ definitionsIn program := by
  rw [← length_mixins]
  exact List.toFinset_card_le _

/-- Mixins that can be put in an order in which each needs later ones only. -/
theorem isAcyclic_of_rank (rank : String → Nat)
    (h : ∀ name other, Needs program name other → rank other < rank name) : IsAcyclic program := by
  have hless (name other : String) (hpath : Relation.TransGen (Needs program) name other) :
      rank other < rank name := by
    induction hpath with
    | single hneeds => exact h _ _ hneeds
    | tail _ hneeds ih => exact lt_trans (h _ _ hneeds) ih
  exact fun name hpath => lt_irrefl _ (hless name name hpath)

/-- A path does not come to a name twice. -/
theorem IsAcyclic.nodup (h : IsAcyclic program) {names : List String}
    (hpath : names.IsChain (Needs program)) : names.Nodup := by
  have hchain : names.IsChain (Relation.TransGen (Needs program)) :=
    hpath.imp fun _ _ => Relation.TransGen.single
  refine hchain.pairwise.imp ?_
  rintro name _ hneeds rfl
  exact h name hneeds

/-- A path of mixins that a program defines is no longer than there are mixins. -/
theorem IsAcyclic.length_le (h : IsAcyclic program) {names : List String}
    (hpath : names.IsChain (Needs program)) (hnames : ∀ name ∈ names, name ∈ mixins program) :
    names.length ≤ (mixins program).card := by
  rw [← List.toFinset_card_of_nodup (h.nodup hpath)]
  exact Finset.card_le_card fun name hname => hnames name (List.mem_toFinset.mp hname)

/-! ## Moments of a run -/

variable {setting : Setting σ} {depth : Nat} {statements : List Statement}
  {machine machine' : Machine σ} {t : Statement} {chain : List Inclusion}

/-- A moment of a run, with the inclusions under way: the run comes to a statement, or has just
entered a mixin. At no other moment is the call stack another one. -/
inductive Moment (setting : Setting σ) (depth : Nat) (statements : List Statement)
    (start : Machine σ) : List Inclusion → Machine σ → Prop where
  | comes {chain : List Inclusion} {t : Statement} {machine : Machine σ}
      (h : ComesIn setting depth statements start chain t machine) :
      Moment setting depth statements start chain machine
  | enters {chain : List Inclusion} {t : Statement} {machine : Machine σ} {inclusion : Inclusion}
      {body : List Statement} (h : ComesIn setting depth statements start chain t machine)
      (hincludes : t.Includes setting machine inclusion body) :
      Moment setting depth statements start (chain ++ [inclusion])
        ((machine.polled setting).enterMixin inclusion.mixin inclusion.span)

/-- Names of mixins of a program that are a path, which sets out from what some statements
include. -/
structure Links (program statements : List Statement) (names : List String) : Prop where
  isChain : names.IsChain (Needs program)
  head_mem : ∀ name ∈ names.head?, name ∈ includesIn statements
  mem_mixins : ∀ name ∈ names, name ∈ mixins program

theorem links_nil (program statements : List Statement) : Links program statements [] :=
  ⟨.nil, by simp, by simp⟩

theorem Links.mono {statements' : List Statement} {names : List String}
    (h : Links program statements names)
    (hsub : includesIn statements ⊆ includesIn statements') : Links program statements' names :=
  ⟨h.isChain, fun name hname => hsub (h.head_mem name hname), h.mem_mixins⟩

/-- A path from the body of a mixin starts with the mixin where that is included. -/
theorem Links.inMixin {body : List Statement} {name : String} {names : List String}
    (h : Links program body names) (hdefined : machine.IsDefinedBy program)
    (hbody : machine.mixins.get? name = some body) (hname : name ∈ includesIn statements) :
    Links program statements (name :: names) := by
  obtain ⟨range, hdefines⟩ := hdefined name body hbody
  refine ⟨List.isChain_cons.mpr ⟨fun other hother => ?_, h.isChain⟩, ?_, ?_⟩
  · exact ⟨range, body, hdefines, h.head_mem other hother⟩
  · simpa using hname
  · exact List.forall_mem_cons.mpr ⟨name_mem_mixins hdefines, h.mem_mixins⟩

theorem Includes.links {inclusion : Inclusion} {body : List Statement}
    (h : t.Includes setting machine inclusion body) (hdefined : machine.IsDefinedBy program) :
    Links program [t] [inclusion.mixin] := by
  obtain ⟨-, -, hbody⟩ := h
  exact (links_nil program _).inMixin hdefined hbody (by simp [includesIn, includes])

/-- The inclusions under way are linked, with those that follow from the statement. -/
theorem ComesIn.links (h : ComesIn setting depth statements machine chain t machine')
    (hdefined : machine.IsDefinedBy program)
    (hin : ∀ s ∈ nodesIn statements, s ∈ nodesIn program) (more : List Inclusion)
    (hmore : Links program [t] (more.map Inclusion.mixin)) :
    Links program statements ((chain ++ more).map Inclusion.mixin) := by
  induction h with
  | here => exact hmore.mono (by simp [includesIn])
  | later hrun h ih =>
    have hrest := ih (isDefinedBy_of_run hrun hdefined (forall_nodes_first hin))
      (forall_nodes_rest hin) hmore
    exact hrest.mono (List.subset_append_right _ _)
  | inRule hgoes h ih =>
    exact (ih hdefined (forall_nodes_inner hin) hmore).mono (List.subset_append_left _ _)
  | inMixin hgoes hspan hbody h ih =>
    have hinner := ih hdefined (hdefined.mem_nodesIn hbody) hmore
    exact hinner.inMixin hdefined hbody List.mem_cons_self

theorem Moment.links {host : σ} (h : Moment setting depth program { host := host } chain machine) :
    Links program program (chain.map Inclusion.mixin) := by
  have hstart := Machine.isDefinedBy_start program host
  cases h with
  | comes h =>
    have hlinks := h.links hstart (fun _ hs => hs) [] (links_nil program _)
    rwa [List.append_nil] at hlinks
  | enters h hincludes =>
    obtain ⟨-, hdefined⟩ := h.within hstart fun _ hs => hs
    exact h.links hstart (fun _ hs => hs) [_] (hincludes.links hdefined)

theorem Moment.stack_eq {start : Machine σ} (h : Moment setting depth program start chain machine)
    (hstart : start.stack = {}) : machine.stack = Inclusion.stack chain := by
  cases h with
  | comes h => exact h.stack_eq hstart
  | @enters outer _ machine inclusion _ h hincludes =>
    have hpolled : (machine.polled setting).stack = Inclusion.stack outer := h.stack_eq hstart
    have hpush : Inclusion.stack (outer ++ [inclusion]) =
        (Inclusion.stack outer).push s!"{inclusion.mixin}()" inclusion.span := by
      rw [Inclusion.stack, List.reverse_append]
      rfl
    rw [Machine.enterMixin, hpolled, hpush]

/-! ## Runs that end -/

/-- Whether a result is any but that mixins are included too deeply. -/
def Finishes {S : Type} (result : EStateM.Result CompileError S α) : Prop :=
  ∀ last, result ≠ .error .tooDeep last

/-- Wherever the first run finishes, the second one does the same. -/
def ExtendsTo (run run' : Run σ α) : Prop :=
  ∀ machine, Finishes (run machine) → run' machine = run machine

namespace ExtendsTo

theorem refl (run : Run σ α) : ExtendsTo run run := fun _ _ => rfl

theorem trans {run run' run'' : Run σ α} (h : ExtendsTo run run') (h' : ExtendsTo run' run'') :
    ExtendsTo run run'' := by
  intro machine hends
  have heq := h machine hends
  rw [h' machine (heq ▸ hends), heq]

theorem bind {run run' : Run σ α} {next next' : α → Run σ β} (hrun : ExtendsTo run run')
    (hnext : ∀ a, ExtendsTo (next a) (next' a)) : ExtendsTo (run >>= next) (run' >>= next') := by
  intro machine hends
  cases h : run machine with
  | ok a middle =>
    have hrun' : run' machine = .ok a middle := by
      rw [hrun machine (by rw [h]; exact fun _ => nofun), h]
    rw [bind_of_ok h] at hends ⊢
    rw [bind_of_ok hrun', hnext a middle hends]
  | error error last =>
    rw [bind_of_error h] at hends ⊢
    have hfirst : Finishes (run machine) := by
      intro last' heq
      obtain ⟨rfl, -⟩ := EStateM.Result.error.inj (h.symm.trans heq)
      exact hends last rfl
    exact bind_of_error ((hrun machine hfirst).trans h)

theorem bracket {κ : Type} {body body' : Run σ α} (h : ExtendsTo body body')
    (keep : Machine σ → κ) (enter : Machine σ → Machine σ) (leave : κ → Machine σ → Machine σ) :
    ExtendsTo (Machine.bracket keep enter leave body)
      (Machine.bracket keep enter leave body') := by
  intro machine hends
  have hbody : Finishes (body (enter machine)) := by
    intro last heq
    refine hends (leave (keep machine) last) ?_
    rw [Machine.bracket, heq]
  rw [Machine.bracket, Machine.bracket, h (enter machine) hbody]

end ExtendsTo

section

variable {runMixin runMixin' : List Statement → Run σ Unit}

mutual

theorem run_extendsTo (hmixin : ∀ body, ExtendsTo (runMixin body) (runMixin' body)) :
    (s : Statement) → ExtendsTo (s.run setting runMixin) (s.run setting runMixin')
  | .rule range selector body => by
    rw [run, run]
    refine .bind (.refl _) fun _ => .bind (.refl _) fun machine => ?_
    exact .bracket (runAll_extendsTo hmixin body) _ _ _
  | .includeMixin range name => by
    rw [run, run]
    refine .bind (.refl _) fun _ => .bind (.refl _) fun span => .bind (.refl _) fun machine => ?_
    cases machine.mixins.get? name with
    | none => exact .refl _
    | some body => exact .bracket (hmixin body) _ _ _
  | .assign .. | .warn .. | .debug .. | .defineMixin .. | .declaration .. => by
    rw [run, run]
    exact .refl _

theorem runAll_extendsTo (hmixin : ∀ body, ExtendsTo (runMixin body) (runMixin' body)) :
    (statements : List Statement) →
      ExtendsTo (runAll setting runMixin statements) (runAll setting runMixin' statements)
  | [] => by
    rw [runAll, runAll]
    exact .refl _
  | s :: statements => by
    rw [runAll, runAll]
    exact .bind (run_extendsTo hmixin s) fun _ => runAll_extendsTo hmixin statements

end

end

/-- A run that finishes at some depth does the same at any greater one. -/
theorem runBlock_extendsTo (setting : Setting σ) {depth depth' : Nat} (hle : depth ≤ depth')
    (statements : List Statement) :
    ExtendsTo (runBlock setting depth statements) (runBlock setting depth' statements) := by
  have hstep (k : Nat) : ∀ statements,
      ExtendsTo (runBlock setting k statements) (runBlock setting (k + 1) statements) := by
    induction k with
    | zero =>
      refine runAll_extendsTo fun body machine hends => ?_
      exact absurd rfl (hends machine)
    | succ k ih => exact runAll_extendsTo ih
  induction hle with
  | refl => exact .refl _
  | step _ ih => exact ih.trans (hstep _ statements)

theorem Raises.ne_tooDeep {error : CompileError} (h : t.Raises setting machine error) :
    error ≠ .tooDeep := by
  cases h with
  | foreign h => cases h <;> nofun
  | operand _ h =>
    cases h with
    | foreign h => cases h <;> nofun
    | undefinedVariable | operation => nofun
  | undefinedMixin | outsideRule => nofun

/-- A run fails for its depth only where more inclusions are under way than the program has
mixins. -/
theorem IsAcyclic.finishes (h : IsAcyclic program) (setting : Setting σ)
    (hdepth : (mixins program).card ≤ depth) (host : σ) :
    Finishes (runBlock setting depth program { host := host }) := by
  intro last hlast
  obtain ⟨chain, t, machine, hcomes, hraises | ⟨-, hlength, inclusion, body, hincludes⟩⟩ :=
    runBlock_fails hlast
  · exact hraises.ne_tooDeep rfl
  · have hlinks := (Moment.enters hcomes hincludes).links
    have hle := h.length_le hlinks.isChain hlinks.mem_mixins
    simp only [List.length_map, List.length_append, List.length_singleton] at hle
    omega

end Statement

open Statement

/-- An evaluation of mixins that do not need themselves ends, whatever the host does. It needs no
more depth than there are mixins, and at every moment the inclusions under way are of different
mixins of the program. -/
theorem acyclic_mixins_end {program : List Statement} (hacyclic : IsAcyclic program)
    (setting : Setting σ) (host : σ) :
    let start : Machine σ := { host := host }
    let count := (mixins program).card
    Finishes (evaluate setting program start) ∧
      (Finishes (runBlock setting count program start) ∧ ∀ depth, count ≤ depth →
        runBlock setting depth program start = runBlock setting count program start) ∧
      ∀ depth chain machine, Moment setting depth program start chain machine →
        machine.stack = Inclusion.stack chain ∧
          (machine.stack.frames.map Frame.member).Nodup ∧
          machine.stack.frames.length ≤ count ∧
          ∀ inclusion ∈ chain, inclusion.mixin ∈ mixins program := by
  intro start count
  have hfinishes : Finishes (runBlock setting count program start) :=
    hacyclic.finishes setting (le_refl count) host
  refine ⟨?_, ⟨hfinishes, ?_⟩, ?_⟩
  · intro last hlast
    rw [evaluate] at hlast
    obtain hrun | ⟨_, middle, -, hrest⟩ := bind_eq_error hlast
    · refine hacyclic.finishes setting ?_ host last hrun
      exact le_trans (card_mixins_le program) (Nat.le_add_right _ _)
    · obtain hforeign | ⟨-, hrest⟩ := check_bind_eq_error hrest
      · cases hforeign
      · contradiction
  · intro depth hdepth
    exact runBlock_extendsTo setting hdepth program start hfinishes
  · intro depth chain machine hmoment
    have hlinks := hmoment.links
    have hmember (inclusion : Inclusion) :
        (Inclusion.frame inclusion).member = inclusion.mixin ++ "()" := rfl
    have hstack := hmoment.stack_eq rfl
    have hnames : machine.stack.frames.map Frame.member =
        ((chain.map Inclusion.mixin).map (· ++ "()")).reverse := by
      rw [hstack, Inclusion.stack]
      simp [hmember, Function.comp_def]
    refine ⟨hstack, ?_, ?_, ?_⟩
    · rw [hnames, List.nodup_reverse]
      refine (hacyclic.nodup hlinks.isChain).map fun name other heq => ?_
      exact (String.append_left_inj "()").mp heq
    · have hle := hacyclic.length_le hlinks.isChain hlinks.mem_mixins
      rwa [hstack, Inclusion.stack, List.length_map, List.length_reverse, ← List.length_map]
    · intro inclusion hmem
      exact hlinks.mem_mixins _ (List.mem_map_of_mem hmem)

/-- A mixin that replaces the one that it includes, while it runs. -/
theorem acyclic_mixins_end_replaced :
    let setting : Setting Unit :=
      ⟨LineIndex.ofString "@mixin b { } @mixin a { @mixin b { } @include b; } @include a;",
        none, false, fun _ => pure (), fun _ => false, id⟩
    let program := [Statement.defineMixin ⟨0, 12⟩ "b" [],
      .defineMixin ⟨13, 50⟩ "a" [.defineMixin ⟨24, 36⟩ "b" [], .includeMixin ⟨37, 47⟩ "b"],
      .includeMixin ⟨51, 61⟩ "a"]
    IsAcyclic program ∧ Finishes (evaluate setting program { host := () }) ∧
      ∀ depth chain machine, Moment setting depth program { host := () } chain machine →
        machine.stack.frames.length ≤ 2 := by
  intro setting program
  have hacyclic : IsAcyclic program := by
    refine isAcyclic_of_rank (fun name => if name = "a" then 1 else 0) ?_
    rintro name other ⟨range, body, hdefines, hincludes⟩
    simp only [program, nodesIn, Statement.inner, List.cons_append, List.nil_append, List.mem_cons,
      defineMixin.injEq, reduceCtorEq, List.not_mem_nil, or_false] at hdefines
    rcases hdefines with ⟨-, rfl, rfl⟩ | ⟨-, rfl, rfl⟩ | ⟨-, rfl, rfl⟩
    · contradiction
    · obtain rfl : other = "b" := by simpa [includesIn, includes] using hincludes
      decide
    · contradiction
  have hcount : (mixins program).card = 2 := by decide
  obtain ⟨hends, -, hmoments⟩ := acyclic_mixins_end hacyclic setting ()
  refine ⟨hacyclic, hends, fun depth chain machine hmoment => ?_⟩
  obtain ⟨-, -, hframes, -⟩ := hmoments depth chain machine hmoment
  rwa [hcount] at hframes

end Stylesheet
