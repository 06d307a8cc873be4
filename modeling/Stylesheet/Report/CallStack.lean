import Stylesheet.Source.Span

/-!
# Call stacks

The mixins under way at some moment, each with the place that included it. A trace shows them from
the innermost to the root of the stylesheet, each at the position reached in it.
-/

namespace Stylesheet

/-- A member under way. -/
structure Frame where
  member : String
  /-- Where the member was called, in its caller. -/
  callSite : Span
deriving DecidableEq

/-- The members under way, innermost first. -/
structure CallStack where
  frames : List Frame := []
deriving DecidableEq

namespace CallStack

def push (stack : CallStack) (member : String) (callSite : Span) : CallStack :=
  ⟨⟨member, callSite⟩ :: stack.frames⟩

/-- The innermost frame and the stack below it. -/
def pop (stack : CallStack) : Option Frame × CallStack :=
  (stack.frames.head?, ⟨stack.frames.tail⟩)

def depth (stack : CallStack) : Nat := stack.frames.length

/-- The name of the outermost member. -/
def root : String := "root stylesheet"

def traceLine (position : Span) (member : String) : String := s!"{position}  {member}"

/-- The lines of a trace that has come to a position. -/
def traceLines (position : Span) : List Frame → List String
  | [] => [traceLine position root]
  | frame :: frames => traceLine position frame.member :: traceLines frame.callSite frames

/-- The trace of a stack, as seen from the span under evaluation. -/
def trace (stack : CallStack) (current : Span) : String :=
  "\n".intercalate (traceLines current stack.frames)

@[simp] theorem pop_push (stack : CallStack) (member : String) (callSite : Span) :
    (stack.push member callSite).pop = (some ⟨member, callSite⟩, stack) := rfl

end CallStack

end Stylesheet
