import Stylesheet.Css
import Stylesheet.Syntax.Tree
import Stylesheet.Value

/-!
# Rule trees

What a style sheet of rules, declarations of literals and mixins stands for: the tree of its rules,
with a mixin's body in place of each inclusion. Flattening the tree and writing its rules one after
another gives the text that such a style sheet compiles to.
-/

namespace Stylesheet

/-- What stands in a style sheet without mixins. -/
inductive RuleTree where
  | declaration (property : String) (value : Value)
  | rule (selector : String) (body : List RuleTree)

/-! ## The tree of a style sheet -/

mutual

/-- The value of a literal: of a number, which may have a sign, of a string, or of a list of
literals. -/
def Expr.literal? : Expr → Option Value
  | .number _ value unit => some (.number value unit)
  | .negate _ (.number _ value unit) => some (.number (-value) unit)
  | .text _ s quoted => some (.text s quoted)
  | .list _ items => (Expr.literals? items).map .list
  | _ => none

def Expr.literals? : List Expr → Option (List Value)
  | [] => some []
  | item :: items => do return (← item.literal?) :: (← Expr.literals? items)

end

/-- The mixins defined so far, each with what its body stands for. -/
abbrev Expansions := List (String × List RuleTree)

mutual

/-- What a statement stands for: a declaration of a literal, a rule of such statements, or the
inclusion of a mixin that is defined before. -/
def Statement.expand? (mixins : Expansions) : Statement → Option (List RuleTree)
  | .declaration _ property e => e.literal?.map fun value => [.declaration property value]
  | .rule _ selector body =>
    (Statement.expandAll? mixins body).map fun body => [.rule selector body]
  | .includeMixin _ name => mixins.lookup name
  | _ => none

def Statement.expandAll? (mixins : Expansions) : List Statement → Option (List RuleTree)
  | [] => some []
  | s :: statements => do return (← s.expand? mixins) ++ (← Statement.expandAll? mixins statements)

end

/-- What a style sheet stands for in which each mixin is defined once, outside of all blocks. -/
def Statement.sheet? (mixins : Expansions) : List Statement → Option (List RuleTree)
  | [] => some []
  | .defineMixin _ name body :: statements =>
    if (mixins.lookup name).isSome then none
    else do
      let expansion ← Statement.expandAll? mixins body
      Statement.sheet? ((name, expansion) :: mixins) statements
  | s :: statements => do return (← s.expand? mixins) ++ (← Statement.sheet? mixins statements)

namespace RuleTree

def isRule : RuleTree → Bool
  | rule .. => true
  | declaration .. => false

/-! ## Flattening -/

/-- The selector of a rule, as seen from the resolved selector around it. -/
def resolve (outer : Option String) (selector : String) : String :=
  match outer with
  | none => selector
  | some outer =>
    if '&' ∈ selector.toList then
      String.ofList (outer.toList.intercalate (selector.toList.splitOn '&'))
    else outer ++ " " ++ selector

/-- The declarations directly in a body, in order. -/
def declarations : List RuleTree → List (String × String)
  | [] => []
  | declaration property value :: trees => (property, value.display) :: declarations trees
  | rule .. :: trees => declarations trees

mutual

/-- The rules of a tree in the order in which they are entered, with their selectors resolved. -/
def flatten (outer : Option String) : RuleTree → List CssRule
  | declaration .. => []
  | rule selector body =>
    ⟨resolve outer selector, declarations body⟩ :: flattenAll (some (resolve outer selector)) body

def flattenAll (outer : Option String) : List RuleTree → List CssRule
  | [] => []
  | tree :: trees => tree.flatten outer ++ flattenAll outer trees

end

/-! ## The text of a tree -/

/-- The lines of a rule. -/
def block (rule : CssRule) : List String :=
  (rule.selector ++ " \x7b") ::
    rule.declarations.map (fun (property, value) => s!"  {property}: {value};") ++ ["\x7d"]

/-- The blocks of the rules that have declarations, one blank line apart. -/
def css (trees : List RuleTree) : String :=
  let rules := (flattenAll none trees).filter fun rule => rule.declarations ≠ []
  String.join (([""].intercalate (rules.map block)).map fun line => line ++ "\n")

/-! ## The program's own operations -/

/-- Joining what stands between ampersands puts the joining text in their place. -/
theorem intercalate_splitOn (outer s : List Char) :
    outer.intercalate (s.splitOn '&') = s.flatMap fun c => if c = '&' then outer else [c] := by
  induction s with
  | nil => simp
  | cons c s ih =>
    obtain ⟨part, parts, hparts⟩ := List.exists_cons_of_ne_nil (List.splitOn_ne_nil '&' s)
    rw [List.splitOn_cons_eq_if_modifyHead, List.flatMap_cons, ← ih, hparts]
    by_cases hc : c = '&'
    · simp [hc]
    · cases parts <;> simp [hc]

theorem resolve_eq (outer : Option String) (selector : String) :
    resolve outer selector = resolveSelector outer selector := by
  cases outer with
  | none => rfl
  | some outer =>
    rw [resolve, resolveSelector]
    by_cases h : '&' ∈ selector.toList
    · rw [if_pos h, if_pos (List.contains_iff_mem.mpr h), intercalate_splitOn]
    · have hcontains : ¬selector.toList.contains '&' = true := by simpa using h
      rw [if_neg h, if_neg hcontains]
      rfl

/-- The text of a rule is that of its lines. -/
theorem render_eq (rule : CssRule) :
    rule.render = String.join ((block rule).map fun line => line ++ "\n") := by
  have hdeclaration (declaration : String × String) : CssRule.renderDeclaration declaration =
      s!"  {declaration.1}: {declaration.2};" ++ "\n" := by
    simp [CssRule.renderDeclaration, ← String.toList_inj, toString]
  have hdeclarations : rule.declarations.map CssRule.renderDeclaration =
      (rule.declarations.map fun (property, value) => s!"  {property}: {value};").map
        fun line => line ++ "\n" := by
    rw [List.map_map]
    exact List.map_congr_left fun declaration _ => hdeclaration declaration
  rw [CssRule.render, hdeclarations, ← String.toList_inj]
  simp [block]

/-- Texts of rules with a line feed between them are lines with a blank one between them. -/
theorem intercalate_render (rules : List CssRule) :
    "\n".intercalate (rules.map CssRule.render) =
      String.join (([""].intercalate (rules.map block)).map fun line => line ++ "\n") := by
  induction rules with
  | nil => rfl
  | cons rule rules ih =>
    cases rules with
    | nil => simp [render_eq]
    | cons next rules =>
      have hblocks : [""].intercalate ((rule :: next :: rules).map block) =
          block rule ++ [""] ++ [""].intercalate ((next :: rules).map block) :=
        List.intercalate_cons_cons
      rw [List.map_cons, List.map_cons, String.intercalate_cons_cons, ← List.map_cons, ih, hblocks,
        render_eq]
      simp [String.append_assoc]

theorem css_eq (trees : List RuleTree) : css trees = CssRule.renderAll (flattenAll none trees) := by
  have hfilter : ((flattenAll none trees).filter fun rule => rule.declarations ≠ []) =
      (flattenAll none trees).filter (!·.declarations.isEmpty) := by
    apply List.filter_congr
    intro rule _
    cases rule.declarations <;> simp
  rw [css, CssRule.renderAll, intercalate_render, hfilter]

end RuleTree

end Stylesheet
