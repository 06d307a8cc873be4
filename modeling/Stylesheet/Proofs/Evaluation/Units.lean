import Stylesheet.Proofs.Evaluation.Divisions
import Stylesheet.Proofs.Syntax.Printer

/-!
# Units in sums and products

The units of two operands are joined pair by pair, and still it does not matter how a sum or a
product is grouped, nor in which order its operands stand: the units that they carry decide alone
whether there is a result, and which unit it has. A quotient takes away what a product has added
(`units_independent_of_grouping`).
-/

namespace Stylesheet

variable {σ : Type}

/-! ## Operators that agree on units -/

namespace Operator

/-- The operators of sums. -/
def IsSum (operator : Operator) : Prop := operator = .add ∨ operator = .subtract

/-- A class of operators whose results carry what their operands carry, if it fits together. The
units of all operands stand in a list, and of those that fit together the first one is the unit of
the result. -/
structure UnitLaw (operators : Operator → Prop) (Fits : List String → Prop) : Prop where
  ne_divide {operator : Operator} (h : operators operator) : operator ≠ .divide
  single (unit : Option String) : Fits unit.toList
  left {us vs : List String} (h : Fits (us ++ vs)) : Fits us
  right {us vs : List String} (h : Fits (us ++ vs)) : Fits vs
  head?_eq {us : List String} (h : Fits us) {u : String} (hu : u ∈ us) : us.head? = some u
  unit_eq {operator : Operator} {us vs : List String} (hoperator : operators operator)
      (h : Fits (us ++ vs)) : operator.unit us.head? vs.head? = .ok (us ++ vs).head?
  unit_error {operator : Operator} {us vs : List String} (hoperator : operators operator)
      (hus : Fits us) (hvs : Fits vs) (h : ¬Fits (us ++ vs)) :
      ∃ fault, operator.unit us.head? vs.head? = .error fault

/-- In a sum, all units are the same. -/
theorem unitLaw_sum : UnitLaw IsSum fun us => ∀ u ∈ us, ∀ v ∈ us, u = v where
  ne_divide := by
    rintro _ (rfl | rfl) <;> nofun
  single unit := by cases unit <;> simp
  left h u hu v hv := h u (List.mem_append_left _ hu) v (List.mem_append_left _ hv)
  right h u hu v hv := h u (List.mem_append_right _ hu) v (List.mem_append_right _ hv)
  head?_eq {us} h u hu := by
    cases us with
    | nil => contradiction
    | cons v us => rw [List.head?_cons, h v List.mem_cons_self u hu]
  unit_eq {operator us vs} hoperator h := by
    cases us with
    | nil => rcases hoperator with rfl | rfl <;> rfl
    | cons u us =>
      cases vs with
      | nil => rcases hoperator with rfl | rfl <;> simp [unit]
      | cons v vs =>
        obtain rfl : u = v := h u (by simp) v (by simp)
        rcases hoperator with rfl | rfl <;> simp [unit]
  unit_error {operator us vs} hoperator hus hvs h := by
    cases us with
    | nil => exact absurd hvs h
    | cons u us =>
      cases vs with
      | nil => exact absurd (by simpa using hus) h
      | cons v vs =>
        have hne : u ≠ v := by
          rintro rfl
          refine h fun a ha b hb => ?_
          have heq (c : String) (hc : c ∈ u :: us ++ u :: vs) : c = u := by
            rcases List.mem_append.mp hc with hc | hc
            · exact hus c hc u List.mem_cons_self
            · exact hvs c hc u List.mem_cons_self
          rw [heq a ha, heq b hb]
        rcases hoperator with rfl | rfl <;> exact ⟨_, if_neg hne⟩

/-- In a product, there is at most one unit. -/
theorem unitLaw_product : UnitLaw (· = .multiply) fun us => us.length ≤ 1 where
  ne_divide := by
    rintro _ rfl
    nofun
  single unit := by cases unit <;> simp
  left h := by
    rw [List.length_append] at h
    omega
  right h := by
    rw [List.length_append] at h
    omega
  head?_eq {us} h u hu := by
    obtain ⟨v, rfl⟩ := List.length_eq_one_iff.mp (Nat.le_antisymm h (List.length_pos_of_mem hu))
    rw [List.head?_cons, List.mem_singleton.mp hu]
  unit_eq {operator us vs} hoperator h := by
    subst hoperator
    cases us with
    | nil => rfl
    | cons u us =>
      cases vs with
      | nil => simp [unit]
      | cons v vs =>
        simp only [List.length_append, List.length_cons] at h
        omega
  unit_error {operator us vs} hoperator hus hvs h := by
    subst hoperator
    cases us with
    | nil => exact absurd hvs h
    | cons u us =>
      cases vs with
      | nil => exact absurd (by simpa using hus) h
      | cons v vs => exact ⟨_, rfl⟩

/-- Dividing by a factor brings back the unit of the other one. -/
theorem unit_divide_of_unit_multiply {left right unit : Option String}
    (h : multiply.unit left right = .ok unit) : divide.unit unit right = .ok left := by
  cases left with
  | none =>
    obtain rfl : right = unit := by
      cases right <;> exact Except.ok.inj h
    cases right with
    | none => rfl
    | some r => exact if_pos rfl
  | some l =>
    cases right with
    | none =>
      obtain rfl : some l = unit := Except.ok.inj h
      rfl
    | some r => contradiction

end Operator

/-! ## Trees of operands -/

namespace Expr

variable {setting : Setting σ} {scopes : Scopes} {stack : CallStack}

/-- Whether each node of an expression has a span. In an accepted text, all nodes have. -/
def IsLocated (setting : Setting σ) (e : Expr) : Prop :=
  ∀ node ∈ e.nodes, ∃ span, setting.span node.range = .ok span

/-- An expression combines operands by operators of a class, in any grouping. The operands have
numbers as their values, one after another; the list has the units that they carry, from left to
right. -/
inductive Combines (setting : Setting σ) (scopes : Scopes) (stack : CallStack)
    (operators : Operator → Prop) : Expr → σ → List String → σ → Prop where
  | operand {e : Expr} {host last : σ} {value : Float} {unit : Option String}
      (h : e.eval setting scopes stack host = .ok (.number value unit) last) :
      Combines setting scopes stack operators e host unit.toList last
  | operation {range : Range} {operator : Operator} {left right : Expr} {host middle last : σ}
      {us vs : List String} (hoperator : operators operator)
      (hleft : Combines setting scopes stack operators left host us middle)
      (hright : Combines setting scopes stack operators right middle vs last) :
      Combines setting scopes stack operators (.binary range operator left right) host (us ++ vs)
        last

theorem combines_number (operators : Operator → Prop) (range : Range) (value : Float)
    (unit : Option String) (host : σ) :
    Combines setting scopes stack operators (number range value unit) host unit.toList host :=
  .operand rfl

/-- Whether units alone decide over the value of an expression: it fails with an operation exactly
if they clash, and otherwise is a number whose unit is the one that there is, if there is one. -/
structure DecidedBy (setting : Setting σ) (scopes : Scopes) (stack : CallStack) (e : Expr)
    (host last : σ) (units : List String) (clash : Prop) : Prop where
  fails_iff : (∃ fault span last',
    e.eval setting scopes stack host = .error (.operation fault span) last') ↔ clash
  value (h : ¬clash) : ∃ value unit,
    e.eval setting scopes stack host = .ok (.number value unit) last ∧
      ∀ u, unit = some u ↔ u ∈ units

theorem IsLocated.of_part {e part : Expr} (h : e.IsLocated setting) (hpart : part ∈ e.nodes) :
    part.IsLocated setting :=
  fun node hnode => h node (mem_nodes_trans hpart hnode)

theorem left_mem_nodes (range : Range) (operator : Operator) (left right : Expr) :
    left ∈ (binary range operator left right).nodes :=
  List.mem_cons_of_mem _ (List.mem_append_left _ left.self_mem_nodes)

theorem right_mem_nodes (range : Range) (operator : Operator) (left right : Expr) :
    right ∈ (binary range operator left right).nodes :=
  List.mem_cons_of_mem _ (List.mem_append_right _ right.self_mem_nodes)

/-- An operation on two numbers that is no division does nothing but join them. -/
theorem eval_binary_of_numbers {range : Range} {operator : Operator} {left right : Expr}
    {host middle last : σ} {a b : Float} {l r : Option String} (hdivide : operator ≠ .divide)
    (hleft : left.eval setting scopes stack host = .ok (.number a l) middle)
    (hright : right.eval setting scopes stack middle = .ok (.number b r) last) :
    (binary range operator left right).eval setting scopes stack host =
      orFaultAt setting range ((operator.unit l r).map (Value.number (operator.apply a b)))
        last := by
  rw [eval, bind_of_ok hleft, bind_of_ok hright, if_neg hdivide, Value.combine]
  cases operator.unit l r <;> rfl

/-- The units of all operands decide over a tree, by induction on how it is grouped. -/
theorem Combines.eval {operators : Operator → Prop} {Fits : List String → Prop}
    (hlaw : Operator.UnitLaw operators Fits) {e : Expr} {host last : σ} {units : List String}
    (h : e.Combines setting scopes stack operators host units last)
    (hlocated : e.IsLocated setting) :
    (Fits units → ∃ value,
        e.eval setting scopes stack host = .ok (.number value units.head?) last) ∧
      (¬Fits units → ∃ fault span last',
        e.eval setting scopes stack host = .error (.operation fault span) last') := by
  induction h with
  | @operand e host last value unit h =>
    refine ⟨fun _ => ⟨value, ?_⟩, fun hclash => absurd (hlaw.single unit) hclash⟩
    rw [h]
    cases unit <;> rfl
  | @operation range operator left right host middle last us vs hoperator hleft hright ihl ihr =>
    obtain ⟨hvalue, hclash⟩ := ihl (hlocated.of_part (left_mem_nodes ..))
    obtain ⟨hvalue', hclash'⟩ := ihr (hlocated.of_part (right_mem_nodes ..))
    refine ⟨fun hfits => ?_, fun hunfit => ?_⟩
    · obtain ⟨a, ha⟩ := hvalue (hlaw.left hfits)
      obtain ⟨b, hb⟩ := hvalue' (hlaw.right hfits)
      refine ⟨operator.apply a b, ?_⟩
      rw [eval_binary_of_numbers (hlaw.ne_divide hoperator) ha hb, hlaw.unit_eq hoperator hfits]
      rfl
    · by_cases hus : Fits us
      · obtain ⟨a, ha⟩ := hvalue hus
        by_cases hvs : Fits vs
        · obtain ⟨b, hb⟩ := hvalue' hvs
          obtain ⟨fault, hfault⟩ := hlaw.unit_error hoperator hus hvs hunfit
          obtain ⟨span, hspan⟩ : ∃ span, setting.span range = .ok span :=
            hlocated _ (self_mem_nodes _)
          refine ⟨fault, span, last, ?_⟩
          rw [eval_binary_of_numbers (hlaw.ne_divide hoperator) ha hb, hfault]
          change orFaultAt setting range (.error fault) last = _
          rw [orFaultAt, hspan]
          rfl
        · obtain ⟨fault, span, last', hright⟩ := hclash' hvs
          exact ⟨fault, span, last', by rw [Expr.eval, bind_of_ok ha, bind_of_error hright]⟩
      · obtain ⟨fault, span, last', hleft⟩ := hclash hus
        exact ⟨fault, span, last', by rw [Expr.eval, bind_of_error hleft]⟩

theorem Combines.decidedBy {operators : Operator → Prop} {Fits : List String → Prop}
    (hlaw : Operator.UnitLaw operators Fits) {e : Expr} {host last : σ} {units : List String}
    (h : e.Combines setting scopes stack operators host units last)
    (hlocated : e.IsLocated setting) {clash : Prop} (hclash : ¬Fits units ↔ clash) :
    e.DecidedBy setting scopes stack host last units clash := by
  obtain ⟨hvalue, herror⟩ := h.eval hlaw hlocated
  rw [← hclash]
  refine ⟨⟨?_, herror⟩, fun hfits => ?_⟩
  · rintro ⟨fault, span, last', hfault⟩ hfits
    obtain ⟨value, hok⟩ := hvalue hfits
    rw [hok] at hfault
    contradiction
  · rw [Classical.not_not] at hfits
    obtain ⟨value, hok⟩ := hvalue hfits
    exact ⟨value, units.head?, hok, fun u => ⟨List.mem_of_mem_head?, hlaw.head?_eq hfits⟩⟩

/-! ## Values and places -/

/-- A failure without its place. -/
def Failure.unplaced : Failure → Failure
  | undefinedVariable _ name => .undefinedVariable .nowhere name
  | operation _ fault => .operation .nowhere fault

variable {lookup : String → Option Value}

theorem mapError_bind {α β : Type} {first : Except Failure α} {next next' : α → Except Failure β}
    (hnext : ∀ a, next' a = (next a).mapError Failure.unplaced) :
    (first >>= next).mapError Failure.unplaced = first.mapError Failure.unplaced >>= next' := by
  cases first with
  | ok a => exact (hnext a).symm
  | error failure => rfl

mutual

/-- The result of an expression does not depend on where it stands. -/
theorem result_unplaced : (e : Expr) →
    e.unplaced.result lookup = (e.result lookup).mapError Failure.unplaced
  | .number .. | .text .. => rfl
  | .var range name => by
    rw [unplaced, result, result]
    cases lookup name <;> rfl
  | .negate range operand => by
    rw [unplaced, result, result, result_unplaced operand]
    refine (mapError_bind fun value => ?_).symm
    cases value.negate <;> rfl
  | .list range items => by
    rw [unplaced, result, result, results_unplaced items]
    refine (mapError_bind fun values => ?_).symm
    rfl
  | .binary range operator left right => by
    rw [unplaced, result, result, result_unplaced left, result_unplaced right]
    refine (mapError_bind fun l => (mapError_bind fun r => ?_).symm).symm
    cases Value.combine operator l r <;> rfl

theorem results_unplaced : (items : List Expr) →
    results lookup (unplacedAll items) = (results lookup items).mapError Failure.unplaced
  | [] => rfl
  | item :: items => by
    rw [unplacedAll, results, results, result_unplaced item, results_unplaced items]
    refine (mapError_bind fun value => (mapError_bind fun values => ?_).symm).symm
    rfl

end

/-- What has a value somewhere has it everywhere. -/
theorem result_eq_ok_of_unplaced {e e' : Expr} (hsame : e'.unplaced = e.unplaced) {value : Value}
    (h : e.result lookup = .ok value) : e'.result lookup = .ok value := by
  have hresult : (e'.result lookup).mapError Failure.unplaced = .ok value := by
    rw [← result_unplaced, hsame, result_unplaced, h]
    rfl
  cases hvalue : e'.result lookup with
  | ok value' =>
    rw [hvalue] at hresult
    exact hresult
  | error failure =>
    rw [hvalue] at hresult
    contradiction

theorem IsLocated.exists_spanOf {e : Expr} (h : e.IsLocated setting) :
    ∃ spanOf : Range → Span, ∀ node ∈ e.nodes,
      setting.span node.range = .ok (spanOf node.range) := by
  obtain ⟨whole, -⟩ := h e e.self_mem_nodes
  refine ⟨fun range => (setting.span range).toOption.getD whole, fun node hnode => ?_⟩
  obtain ⟨span, hspan⟩ := h node hnode
  dsimp only
  rw [hspan]
  rfl

/-- An expression that evaluates to a value has it as its result. -/
theorem result_of_eval {e : Expr} {host last : σ} {value : Value} (hlocated : e.IsLocated setting)
    (h : e.eval setting scopes stack host = .ok value last) :
    e.result scopes.get? = .ok value := by
  obtain ⟨spanOf, hspans⟩ := hlocated.exists_spanOf
  let script := told spanOf stack scopes.get? (e.evaluated scopes.get?) (e.result scopes.get?)
  rw [e.eval_eq_run scopes stack hspans, Script.run] at h
  cases hsteps : Step.runAll setting script.steps host with
  | ok _ middle =>
    rw [bind_of_ok hsteps, told] at h
    cases hresult : e.result scopes.get? with
    | ok value' =>
      rw [hresult] at h
      obtain ⟨rfl, -⟩ := EStateM.Result.ok.inj h
      rfl
    | error failure =>
      rw [hresult] at h
      contradiction
  | error error middle =>
    rw [bind_of_error hsteps] at h
    contradiction

/-- With sinks that take everything and no cancellation, an expression evaluates to its result. -/
theorem exists_eval (hfree : ∀ host, setting.isCancelled host = false)
    (htakes : ∀ diagnostic host, ∃ host', setting.deliver diagnostic host = .ok () host')
    {e : Expr} {value : Value} (hlocated : e.IsLocated setting)
    (h : e.result scopes.get? = .ok value) (host : σ) :
    ∃ last, e.eval setting scopes stack host = .ok value last := by
  obtain ⟨spanOf, hspans⟩ := hlocated.exists_spanOf
  let script := told spanOf stack scopes.get? (e.evaluated scopes.get?) (e.result scopes.get?)
  let anything (_ : List Diagnostic) (_ : σ) : Prop := True
  have htold : ∀ taken diagnostic host, anything taken host → ∃ host',
      setting.deliver diagnostic host = .ok () host' ∧ anything (taken ++ [diagnostic]) host' :=
    fun _ diagnostic host _ => (htakes diagnostic host).imp fun _ h => ⟨h, trivial⟩
  obtain ⟨last, hsteps, -⟩ :=
    Step.exists_runAll hfree (fun _ _ => id) htold script.steps [] host trivial
  refine ⟨last, ?_⟩
  rw [e.eval_eq_run scopes stack hspans, Script.run, bind_of_ok hsteps, told, h]
  rfl

/-- The operands of a product that has a result are numbers, and the result has the unit that their
units come to. -/
theorem numbers_of_product {range : Range} {x y : Expr} {value : Value}
    (h : (binary range .multiply x y).result lookup = .ok value) :
    ∃ a l b r unit, x.result lookup = .ok (.number a l) ∧ y.result lookup = .ok (.number b r) ∧
      Operator.multiply.unit l r = .ok unit ∧ value = .number (a * b) unit := by
  rw [result] at h
  cases hx : x.result lookup with
  | error failure =>
    rw [hx] at h
    contradiction
  | ok left =>
    cases hy : y.result lookup with
    | error failure =>
      rw [hx, hy] at h
      contradiction
    | ok right =>
      rw [hx, hy] at h
      change (Value.combine .multiply left right).mapError (Failure.operation range) =
        .ok value at h
      cases left with
      | number a l =>
        cases right with
        | number b r =>
          rw [Value.combine] at h
          cases hunit : Operator.multiply.unit l r with
          | ok unit =>
            rw [hunit] at h
            exact ⟨a, l, b, r, unit, rfl, rfl, hunit, (Except.ok.inj h).symm⟩
          | error fault =>
            rw [hunit] at h
            contradiction
        | text | list => contradiction
      | text | list => cases right <;> contradiction

end Expr

open Stylesheet.Expr

/-- Units are joined independently of grouping. A tree of sums fails for its units exactly if two
of its operands carry different ones, and a tree of products if two of them carry any; otherwise
the result has the one unit that there is, if there is one. With sinks that take everything and no
cancellation, a product that has a value can be divided by its second factor, wherever that is
written again, and the quotient has the unit of the first factor. -/
theorem units_independent_of_grouping (setting : Setting σ) (scopes : Scopes) (stack : CallStack) :
    (∀ e host units last, Combines setting scopes stack Operator.IsSum e host units last →
      e.IsLocated setting →
        e.DecidedBy setting scopes stack host last units (∃ u ∈ units, ∃ v ∈ units, u ≠ v)) ∧
      (∀ e host units last, Combines setting scopes stack (· = .multiply) e host units last →
        e.IsLocated setting →
          e.DecidedBy setting scopes stack host last units (2 ≤ units.length)) ∧
      ((∀ host, setting.isCancelled host = false) →
        (∀ diagnostic host, ∃ host', setting.deliver diagnostic host = .ok () host') →
        ∀ range range' x y y', y'.unplaced = y.unplaced →
          let product := binary range .multiply x y
          let quotient := binary range' .divide product y'
          quotient.IsLocated setting →
            ∀ host value last, product.eval setting scopes stack host = .ok value last →
              ∃ a b unit, (∃ last, x.eval setting scopes stack host = .ok (.number a unit) last) ∧
                ∀ host, ∃ last,
                  quotient.eval setting scopes stack host = .ok (.number b unit) last) := by
  refine ⟨?_, ?_, ?_⟩
  · intro e host units last h hlocated
    refine h.decidedBy Operator.unitLaw_sum hlocated ?_
    simp only [Classical.not_forall, exists_prop, ne_eq]
  · intro e host units last h hlocated
    exact h.decidedBy Operator.unitLaw_product hlocated (by omega)
  · intro hfree htakes range range' x y y' hsame product quotient hlocated host value last h
    have hproduct : product.IsLocated setting := hlocated.of_part (left_mem_nodes ..)
    obtain ⟨a, l, b, r, unit, hx, hy, hunit, rfl⟩ :=
      numbers_of_product (result_of_eval hproduct h)
    have hquotient : quotient.result scopes.get? = .ok (.number (a * b / b) l) := by
      have hback := Operator.unit_divide_of_unit_multiply hunit
      rw [result, result_of_eval hproduct h, result_eq_ok_of_unplaced hsame hy]
      change (Value.combine .divide (.number (a * b) unit) (.number b r)).mapError _ = _
      rw [Value.combine, hback]
      rfl
    refine ⟨a, _, l, ?_, exists_eval hfree htakes hlocated hquotient⟩
    exact exists_eval hfree htakes (hproduct.of_part (left_mem_nodes ..)) hx host

theorem Expr.isLocated_of_isOk {setting : Setting σ} {e : Expr}
    (h : ∀ node ∈ e.nodes, (setting.span node.range).isOk = true) : e.IsLocated setting := by
  intro node hnode
  have hok := h node hnode
  cases hspan : setting.span node.range with
  | ok span => exact ⟨span, rfl⟩
  | error error =>
    rw [hspan] at hok
    contradiction

/-- A sum of lengths that do not fit together, and a product that is divided again. -/
theorem units_independent_of_grouping_lengths :
    let setting : Setting Unit := ⟨LineIndex.ofString "2px+3-1em, 2px*3/3", none, false,
      fun _ => pure (), fun _ => false, id⟩
    let sum := binary ⟨0, 9⟩ .subtract
      (binary ⟨0, 5⟩ .add (number ⟨0, 3⟩ 2 (some "px")) (number ⟨4, 5⟩ 3 none))
      (number ⟨6, 9⟩ 1 (some "em"))
    let product := binary ⟨11, 16⟩ .multiply
      (number ⟨11, 14⟩ 2 (some "px")) (number ⟨15, 16⟩ 3 none)
    let quotient := binary ⟨11, 18⟩ .divide product (number ⟨17, 18⟩ 3 none)
    Combines setting {} {} Operator.IsSum sum () ["px", "em"] () ∧
      Combines setting {} {} (· = .multiply) product () ["px"] () ∧
      (∃ fault span last, sum.eval setting {} {} () = .error (.operation fault span) last) ∧
      (∃ value, product.eval setting {} {} () = .ok (.number value (some "px")) ()) ∧
      ∃ value last, quotient.eval setting {} {} () = .ok (.number value (some "px")) last := by
  intro setting sum product quotient
  have hsum : sum.IsLocated setting := isLocated_of_isOk (by decide +kernel)
  have hquotient : quotient.IsLocated setting := isLocated_of_isOk (by decide +kernel)
  have hsums : Combines setting {} {} Operator.IsSum sum () (["px"] ++ [] ++ ["em"]) () :=
    .operation (Or.inr rfl) (.operation (Or.inl rfl) (combines_number ..) (combines_number ..))
      (combines_number ..)
  have hproducts : Combines setting {} {} (· = .multiply) product () (["px"] ++ []) () :=
    .operation rfl (combines_number ..) (combines_number ..)
  obtain ⟨hsumLaw, hproductLaw, hback⟩ := units_independent_of_grouping setting {} {}
  have hdecided := hproductLaw _ _ _ _ hproducts (hquotient.of_part (left_mem_nodes ..))
  obtain ⟨value, unit, heval, hunit⟩ := hdecided.value (by decide)
  obtain rfl : unit = some "px" := (hunit "px").mpr List.mem_cons_self
  refine ⟨hsums, hproducts, (hsumLaw _ _ _ _ hsums hsum).fails_iff.mpr (by decide),
    ⟨value, heval⟩, ?_⟩
  have htakes (diagnostic : Diagnostic) (host : Unit) :
      ∃ host', setting.deliver diagnostic host = .ok () host' :=
    ⟨host, rfl⟩
  obtain ⟨a, b, unit, ⟨_, hlength⟩, hagain⟩ := hback (fun _ => rfl) htakes _ ⟨11, 18⟩ _
    (number ⟨15, 16⟩ 3 none) (number ⟨17, 18⟩ 3 none) rfl hquotient _ _ _ heval
  obtain ⟨last, hlast⟩ := hagain ()
  obtain ⟨-, rfl⟩ := Value.number.inj (EStateM.Result.ok.inj hlength).1
  exact ⟨b, last, hlast⟩

end Stylesheet
