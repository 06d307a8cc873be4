import Stylesheet.Evaluation.Expression
import Stylesheet.Proofs.Evaluation.Script
import Stylesheet.Proofs.Syntax.ExpressionGrammar

/-!
# The divisions of an expression

What the value of an expression is, and which divisions are announced on the way to it, told from
the values of the variables alone. The evaluator does just that: it reports the divisions of the
nodes that it comes to the end of, operands first, and nothing else (`Expr.eval_eq_run`).
-/

namespace Stylesheet

/-! ## Operations that fail -/

namespace Value

end Value

namespace Expr

/-! ## Values -/

/-- Why an expression has no value, with the range at fault. -/
inductive Failure where
  | undefinedVariable (range : Range) (name : String)
  | operation (range : Range) (fault : OperationFault)

/-- The error that a failure becomes, where ranges have the given spans. -/
def Failure.error (spanOf : Range → Span) : Failure → CompileError
  | undefinedVariable range name => .undefinedVariable name (spanOf range)
  | operation range fault => .operation fault (spanOf range)

mutual

/-- The value of an expression, where variables have the values of a lookup. -/
def result (lookup : String → Option Value) : Expr → Except Failure Value
  | number _ value unit => .ok (.number value unit)
  | text _ s quoted => .ok (.text s quoted)
  | var range name => ((lookup name).map .ok).getD (.error (.undefinedVariable range name))
  | negate range operand => do
    (← operand.result lookup).negate.mapError (.operation range)
  | list _ items => do return .list (← results lookup items)
  | binary range operator left right => do
    let left ← left.result lookup
    let right ← right.result lookup
    (Value.combine operator left right).mapError (.operation range)

def results (lookup : String → Option Value) : List Expr → Except Failure (List Value)
  | [] => .ok []
  | item :: items => do return (← item.result lookup) :: (← results lookup items)

end

/-- Whether an expression has a value. -/
def HasValue (lookup : String → Option Value) (e : Expr) : Prop :=
  ∃ value, e.result lookup = .ok value

/-- An expression has no value although all that it is made of has one. -/
inductive FailsItself (lookup : String → Option Value) : Expr → Failure → Prop where
  | var {range : Range} {name : String} (h : lookup name = none) :
      FailsItself lookup (.var range name) (.undefinedVariable range name)
  | negate {range : Range} {operand : Expr} {value : Value} {fault : OperationFault}
      (hoperand : operand.result lookup = .ok value) (h : value.negate = .error fault) :
      FailsItself lookup (.negate range operand) (.operation range fault)
  | binary {range : Range} {operator : Operator} {left right : Expr} {l r : Value}
      {fault : OperationFault} (hleft : left.result lookup = .ok l)
      (hright : right.result lookup = .ok r) (h : Value.combine operator l r = .error fault) :
      FailsItself lookup (.binary range operator left right) (.operation range fault)

/-! ## The order of nodes -/

mutual

/-- The nodes of an expression, each behind those that it is made of. -/
def postorder : Expr → List Expr
  | negate range operand => operand.postorder ++ [.negate range operand]
  | list range items => postorderIn items ++ [.list range items]
  | binary range operator left right =>
    left.postorder ++ right.postorder ++ [.binary range operator left right]
  | e => [e]

def postorderIn : List Expr → List Expr
  | [] => []
  | item :: items => item.postorder ++ postorderIn items

end

/-- What is evaluated next, if what comes before has a result. -/
def next {α : Type} (nodes : List Expr) : Except Failure α → List Expr
  | .ok _ => nodes
  | .error _ => []

mutual

/-- The nodes of which an evaluation has the value, in order, and the one that it fails in. -/
def evaluated (lookup : String → Option Value) : Expr → List Expr
  | negate range operand =>
    operand.evaluated lookup ++ next [.negate range operand] (operand.result lookup)
  | list range items =>
    evaluatedIn lookup items ++ next [.list range items] (results lookup items)
  | binary range operator left right =>
    left.evaluated lookup ++ next
      (right.evaluated lookup ++
        next [.binary range operator left right] (right.result lookup))
      (left.result lookup)
  | e => [e]

def evaluatedIn (lookup : String → Option Value) : List Expr → List Expr
  | [] => []
  | item :: items =>
    item.evaluated lookup ++ next (evaluatedIn lookup items) (item.result lookup)

end

mutual

/-- Every node has its one place in the order. -/
theorem postorder_perm : (e : Expr) → e.postorder.Perm e.nodes
  | .number .. | .text .. | .var .. => .refl _
  | .negate range operand => by
    rw [postorder, nodes, inner]
    exact (List.perm_append_singleton _ _).trans (operand.postorder_perm.cons _)
  | .list range items => by
    rw [postorder, nodes, inner]
    exact (List.perm_append_singleton _ _).trans ((postorderIn_perm items).cons _)
  | .binary range operator left right => by
    rw [postorder, nodes, inner]
    exact (List.perm_append_singleton _ _).trans
      ((left.postorder_perm.append right.postorder_perm).cons _)

theorem postorderIn_perm : (items : List Expr) → (postorderIn items).Perm (nodesIn items)
  | [] => .refl _
  | item :: items => by
    rw [postorderIn, nodesIn, ← List.cons_append]
    exact item.postorder_perm.append (postorderIn_perm items)

end

/-- What is inside a node of an expression is a node of it, if this is so for the nodes inside. -/
theorem mem_nodes_of_inner {e part node : Expr} (hnode : node ∈ part.nodes)
    (hinner : part ∈ e.inner → node ∈ e.inner) (hpart : part ∈ e.nodes) : node ∈ e.nodes := by
  rcases List.mem_cons.mp hpart with rfl | hpart
  · exact hnode
  · exact List.mem_cons_of_mem _ (hinner hpart)

mutual

theorem mem_inner_trans {part node : Expr} (hnode : node ∈ part.nodes) :
    (e : Expr) → part ∈ e.inner → node ∈ e.inner
  | .number .., h | .text .., h | .var .., h => by simp [inner] at h
  | .negate _ operand, h => mem_nodes_of_inner hnode (mem_inner_trans hnode operand) h
  | .list _ items, h => mem_nodesIn_trans hnode items h
  | .binary _ _ left right, h => by
    rcases List.mem_append.mp h with h | h
    · exact List.mem_append_left _ (mem_nodes_of_inner hnode (mem_inner_trans hnode left) h)
    · exact List.mem_append_right _ (mem_nodes_of_inner hnode (mem_inner_trans hnode right) h)

theorem mem_nodesIn_trans {part node : Expr} (hnode : node ∈ part.nodes) :
    (items : List Expr) → part ∈ nodesIn items → node ∈ nodesIn items
  | [], h => by simp [nodesIn] at h
  | item :: items, h => by
    rw [nodesIn, ← List.cons_append] at h ⊢
    rcases List.mem_append.mp h with h | h
    · exact List.mem_append_left _ (mem_nodes_of_inner hnode (mem_inner_trans hnode item) h)
    · exact List.mem_append_right _ (mem_nodesIn_trans hnode items h)

end

theorem mem_nodes_trans {e part node : Expr} (hpart : part ∈ e.nodes)
    (hnode : node ∈ part.nodes) : node ∈ e.nodes :=
  mem_nodes_of_inner hnode (mem_inner_trans hnode e) hpart

/-! ## How far an evaluation comes -/

/-- Of nodes in order, some have been evaluated when there is a result: all of them, or those up to
the first one that fails. -/
inductive Progress {α : Type} (lookup : String → Option Value) (all : List Expr) :
    List Expr → Except Failure α → Prop where
  | whole {value : α} (hvalues : ∀ node ∈ all, node.HasValue lookup) :
      Progress lookup all all (.ok value)
  | upTo (before behind : List Expr) {node : Expr} {failure : Failure}
      (hall : all = before ++ node :: behind) (hvalues : ∀ node ∈ before, node.HasValue lookup)
      (hfails : node.FailsItself lookup failure) :
      Progress lookup all (before ++ [node]) (.error failure)

namespace Progress

variable {α β : Type} {lookup : String → Option Value} {all all' done done' : List Expr}
  {a : α} {result : Except Failure β} {failure : Failure} {node : Expr}

/-- What follows a result is evaluated behind it, if there is one. -/
theorem bind {first : Except Failure α} {rest : α → Except Failure β}
    (h : Progress lookup all done first)
    (hrest : ∀ a, first = .ok a → Progress lookup all' done' (rest a)) :
    Progress lookup (all ++ all') (done ++ next done' first) (first >>= rest) := by
  cases h with
  | @whole a hvalues =>
    have hlast := hrest a rfl
    change Progress lookup (all ++ all') (all ++ done') (rest a)
    generalize rest a = result at hlast ⊢
    cases hlast with
    | whole hvalues' => exact .whole (List.forall_mem_append.mpr ⟨hvalues, hvalues'⟩)
    | upTo before behind hall hvalues' hfails =>
      rw [← List.append_assoc]
      refine .upTo _ behind ?_ (List.forall_mem_append.mpr ⟨hvalues, hvalues'⟩) hfails
      rw [hall, List.append_assoc]
  | @upTo before behind node failure hall hvalues hfails =>
    change Progress lookup (all ++ all') (before ++ [node] ++ []) (.error failure)
    rw [List.append_nil]
    refine .upTo before (behind ++ all') ?_ hvalues hfails
    rw [hall, List.append_assoc, List.cons_append]

/-- A result is put into shape without a further node. -/
theorem map {first : Except Failure α} (h : Progress lookup all done first) (f : α → β) :
    Progress lookup all done (first >>= fun a => .ok (f a)) := by
  cases h with
  | whole hvalues => exact .whole hvalues
  | upTo before behind hall hvalues hfails => exact .upTo before behind hall hvalues hfails

theorem last (h : node.HasValue lookup) : Progress lookup [node] [node] (.ok a) :=
  .whole (List.forall_mem_singleton.mpr h)

theorem fails (h : node.FailsItself lookup failure) :
    Progress lookup [node] [node] (.error failure : Except Failure α) :=
  .upTo [] [] rfl (by simp) h

/-- An operation on operands that have values. -/
theorem operation {range : Range} {outcome : Except OperationFault Value}
    (hresult : node.result lookup = outcome.mapError (.operation range))
    (hfails : ∀ fault, outcome = .error fault →
      node.FailsItself lookup (.operation range fault)) :
    Progress lookup [node] [node] (outcome.mapError (.operation range)) := by
  cases outcome with
  | ok value => exact .last ⟨value, hresult⟩
  | error fault => exact .fails (hfails fault rfl)

end Progress

mutual

theorem progress (lookup : String → Option Value) :
    (e : Expr) → Progress lookup e.postorder (e.evaluated lookup) (e.result lookup)
  | .number _ value unit => .last ⟨.number value unit, rfl⟩
  | .text _ s quoted => .last ⟨.text s quoted, rfl⟩
  | .var range name => by
    rw [result]
    cases h : lookup name with
    | some value => exact .last ⟨value, by rw [result, h]; rfl⟩
    | none => exact .fails (.var h)
  | .negate range operand => by
    rw [postorder, evaluated, result]
    refine (operand.progress lookup).bind fun value hoperand => ?_
    exact .operation (by rw [result, hoperand]; rfl) fun fault => .negate hoperand
  | .list range items => by
    rw [postorder, evaluated, result]
    refine (progressIn lookup items).bind fun values hitems => ?_
    exact .last ⟨.list values, by rw [result, hitems]; rfl⟩
  | .binary range operator left right => by
    rw [postorder, evaluated, result, List.append_assoc]
    refine (left.progress lookup).bind fun l hleft => ?_
    refine (right.progress lookup).bind fun r hright => ?_
    exact .operation (by rw [result, hleft, hright]; rfl) fun fault => .binary hleft hright

theorem progressIn (lookup : String → Option Value) :
    (items : List Expr) →
      Progress lookup (postorderIn items) (evaluatedIn lookup items) (results lookup items)
  | [] => .whole (by simp [postorderIn])
  | item :: items => by
    rw [postorderIn, evaluatedIn, results]
    exact (item.progress lookup).bind fun value _ => (progressIn lookup items).map _

end

/-! ## What is announced -/

/-- A division of two numbers. -/
structure Division where
  range : Range
  left : Value
  right : Value

/-- What is said about a division. -/
def Division.notice (spanOf : Range → Span) (stack : CallStack) (division : Division) :
    Diagnostic :=
  Setting.warning (divisionMessage division.left division.right) (spanOf division.range) true stack

/-- The division that a node is, if its operands have numbers as their values. -/
def division? (lookup : String → Option Value) : Expr → Option Division
  | binary range .divide left right =>
    match left.result lookup, right.result lookup with
    | .ok l, .ok r => if l.isNumber && r.isNumber then some ⟨range, l, r⟩ else none
    | _, _ => none
  | _ => none

theorem division?_binary {lookup : String → Option Value} {range : Range} {operator : Operator}
    {left right : Expr} {l r : Value} (hleft : left.result lookup = .ok l)
    (hright : right.result lookup = .ok r) :
    division? lookup (.binary range operator left right) =
      if operator = .divide then (if l.isNumber && r.isNumber then some ⟨range, l, r⟩ else none)
      else none := by
  cases operator with
  | divide => simp only [division?, hleft, hright, if_true]
  | add | subtract | multiply => rfl

section

variable {σ α β : Type} {setting : Setting σ} {spanOf : Range → Span} {stack : CallStack}
  {lookup : String → Option Value} {range : Range}

/-- The script that reports the divisions among some nodes and comes to a result. -/
def told (spanOf : Range → Span) (stack : CallStack) (lookup : String → Option Value)
    (nodes : List Expr) (result : Except Failure α) : Script α :=
  ⟨((nodes.filterMap (division? lookup)).map (·.notice spanOf stack)).map .report,
    result.mapError (Failure.error spanOf)⟩

/-- A run that goes on from a result tells what it goes on to tell behind it. -/
theorem bind_eq_run {nodes nodes' : List Expr} {first : Except Failure α}
    {rest : α → Except Failure β} {act : HostM CompileError σ α}
    {more : α → HostM CompileError σ β}
    (hact : act = (told spanOf stack lookup nodes first).run setting)
    (hmore : ∀ a, first = .ok a →
      more a = (told spanOf stack lookup nodes' (rest a)).run setting) :
    act >>= more =
      (told spanOf stack lookup (nodes ++ next nodes' first) (first >>= rest)).run setting := by
  rw [hact]
  cases first with
  | ok a =>
    change _ = (told spanOf stack lookup (nodes ++ nodes') (rest a)).run setting
    simp only [Script.run, told, List.filterMap_append, List.map_append, Step.runAll_append,
      bind_assoc]
    exact congrArg _ (funext fun _ => hmore a rfl)
  | error failure =>
    change _ = (told spanOf stack lookup (nodes ++ []) (.error failure)).run setting
    rw [List.append_nil, Script.run, bind_assoc]
    rfl

theorem map_eq_run {nodes : List Expr} {first : Except Failure α} {act : HostM CompileError σ α}
    (f : α → β) (hact : act = (told spanOf stack lookup nodes first).run setting) :
    (do return f (← act)) =
      (told spanOf stack lookup nodes (first >>= fun a => .ok (f a))).run setting := by
  rw [hact, Script.run, bind_assoc]
  cases first <;> rfl

/-- A node that is no division tells nothing itself. -/
theorem run_told_of_eq_none {node : Expr} (hnode : division? lookup node = none)
    (result : Except Failure α) :
    (told spanOf stack lookup [node] result).run setting =
      MonadExcept.ofExcept (result.mapError (Failure.error spanOf)) := by
  rw [told, List.filterMap_cons_none hnode, List.filterMap_nil, List.map_nil, List.map_nil,
    Script.run, Step.runAll, pure_bind]

theorem announceDivision_eq_run (hspan : setting.span range = .ok (spanOf range)) (l r : Value) :
    announceDivision setting stack range l r =
      Step.runAll setting (if l.isNumber && r.isNumber then
        [.report (Division.notice spanOf stack ⟨range, l, r⟩)] else []) := by
  by_cases hnumbers : (l.isNumber && r.isNumber) = true
  · rw [announceDivision, if_pos hnumbers, if_pos hnumbers, hspan]
    exact (bind_pure (Step.run setting (.report _))).symm
  · rw [announceDivision, if_neg hnumbers, if_neg hnumbers]
    rfl

theorem orFaultAt_eq (hspan : setting.span range = .ok (spanOf range))
    (outcome : Except OperationFault Value) :
    orFaultAt setting range outcome =
      MonadExcept.ofExcept ((outcome.mapError (.operation range)).mapError
        (Failure.error spanOf)) := by
  cases outcome with
  | ok value => rfl
  | error fault => rw [orFaultAt, hspan]; rfl

/-- What remains of an operation once its operands have values. -/
theorem operation_eq_run (hspan : setting.span range = .ok (spanOf range)) {operator : Operator}
    {left right : Expr} {l r : Value} (hleft : left.result lookup = .ok l)
    (hright : right.result lookup = .ok r) :
    (do
      if operator = .divide then announceDivision setting stack range l r
      orFaultAt setting range (Value.combine operator l r)) =
      (told spanOf stack lookup [.binary range operator left right]
        ((Value.combine operator l r).mapError (.operation range))).run setting := by
  rw [orFaultAt_eq hspan, announceDivision_eq_run hspan]
  by_cases hdivide : operator = .divide
  · rw [if_pos hdivide, Script.run, told, List.filterMap_cons,
      division?_binary hleft hright, if_pos hdivide]
    cases l.isNumber && r.isNumber <;> rfl
  · rw [if_neg hdivide, run_told_of_eq_none]
    rw [division?_binary hleft hright, if_neg hdivide]

mutual

theorem eval_eq_run (scopes : Scopes) (stack : CallStack) : (e : Expr) →
    (∀ node ∈ e.nodes, setting.span node.range = .ok (spanOf node.range)) →
    e.eval setting scopes stack =
      (told spanOf stack scopes.get? (e.evaluated scopes.get?)
        (e.result scopes.get?)).run setting
  | .number .., _ | .text .., _ => by
    simp only [evaluated]
    rw [run_told_of_eq_none rfl]
    rfl
  | .var range name, hspans => by
    have hspan : setting.span range = .ok (spanOf range) := hspans _ (self_mem_nodes _)
    simp only [evaluated]
    rw [run_told_of_eq_none rfl, eval, result, hspan]
    cases scopes.get? name <;> rfl
  | .negate range operand, hspans => by
    have hspan : setting.span range = .ok (spanOf range) := hspans _ (self_mem_nodes _)
    rw [eval, evaluated, result]
    refine bind_eq_run (operand.eval_eq_run scopes stack fun node hnode =>
      hspans node (List.mem_cons_of_mem _ hnode)) fun value _ => ?_
    rw [run_told_of_eq_none rfl, orFaultAt_eq hspan]
  | .list range items, hspans => by
    rw [eval, evaluated, result]
    refine bind_eq_run (evalAll_eq_run scopes stack items fun node hnode =>
      hspans node (List.mem_cons_of_mem _ hnode)) fun values _ => ?_
    rw [run_told_of_eq_none rfl]
    rfl
  | .binary range operator left right, hspans => by
    have hspan : setting.span range = .ok (spanOf range) := hspans _ (self_mem_nodes _)
    rw [eval, evaluated, result]
    refine bind_eq_run (left.eval_eq_run scopes stack fun node hnode =>
      hspans node (List.mem_cons_of_mem _ (List.mem_append_left _ hnode))) fun l hleft => ?_
    refine bind_eq_run (right.eval_eq_run scopes stack fun node hnode =>
      hspans node (List.mem_cons_of_mem _ (List.mem_append_right _ hnode))) fun r hright => ?_
    exact operation_eq_run hspan hleft hright

theorem evalAll_eq_run (scopes : Scopes) (stack : CallStack) : (items : List Expr) →
    (∀ node ∈ nodesIn items, setting.span node.range = .ok (spanOf node.range)) →
    evalAll setting scopes stack items =
      (told spanOf stack scopes.get? (evaluatedIn scopes.get? items)
        (results scopes.get? items)).run setting
  | [], _ => rfl
  | item :: items, hspans => by
    rw [evalAll, evaluatedIn, results]
    rw [nodesIn, ← List.cons_append] at hspans
    refine bind_eq_run (item.eval_eq_run scopes stack fun node hnode =>
      hspans node (List.mem_append_left _ hnode)) fun value _ => ?_
    exact map_eq_run _ (evalAll_eq_run scopes stack items fun node hnode =>
      hspans node (List.mem_append_right _ hnode))

end

end

end Expr

end Stylesheet
