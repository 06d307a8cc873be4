/-!
# Style rules in the output

A rule has a selector that needs no context any more and declarations in the order in which they
were made. Rules without declarations are left out, and a blank line separates the others.
-/

namespace Stylesheet

structure CssRule where
  selector : String
  declarations : List (String × String) := []
deriving DecidableEq, Repr

namespace CssRule

def declare (rule : CssRule) (property value : String) : CssRule :=
  { rule with declarations := rule.declarations ++ [(property, value)] }

def renderDeclaration : String × String → String
  | (property, value) => s!"  {property}: {value};\n"

def render (rule : CssRule) : String :=
  rule.selector ++ " \x7b\n" ++ String.join (rule.declarations.map renderDeclaration) ++ "\x7d\n"

/-- The text of all rules. -/
def renderAll (rules : List CssRule) : String :=
  "\n".intercalate ((rules.filter (!·.declarations.isEmpty)).map render)

end CssRule

/-- The selector of a rule inside another. An ampersand stands for the outer selector; a selector
without one matches inside what the outer one matches. -/
def resolveSelector (outer : Option String) (selector : String) : String :=
  match outer with
  | none => selector
  | some outer =>
    if selector.toList.contains '&' then
      String.ofList (selector.toList.flatMap fun c => if c = '&' then outer.toList else [c])
    else s!"{outer} {selector}"

end Stylesheet
