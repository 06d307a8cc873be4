import Stylesheet.Source.Span
import Stylesheet.Text.Lines

/-!
# Diagnostics

A diagnostic is a warning or a debug message, with what is known about its origin. On a plain text
channel a warning takes several lines and a debug message takes one.
-/

namespace Stylesheet

inductive Channel where
  | warn
  | debug
deriving DecidableEq, Repr

def Channel.name : Channel → String
  | .warn => "warn"
  | .debug => "debug"

structure WarnOptions where
  /-- Whether the warning announces behavior that will change or go away. -/
  deprecation : Bool := false
  span : Option Span := none
  stack : Option String := none
deriving DecidableEq

/-- A debug message always stands for the statement that produced it. -/
structure DebugOptions where
  span : Span
deriving DecidableEq

inductive Diagnostic where
  | warn (message : String) (options : WarnOptions)
  | debug (message : String) (options : DebugOptions)
deriving DecidableEq

namespace Diagnostic

def channel : Diagnostic → Channel
  | .warn .. => .warn
  | .debug .. => .debug

def message : Diagnostic → String
  | .warn message _ => message
  | .debug message _ => message

/-- The lines below the label of a warning. -/
def indented (line : String) : String := "    " ++ line ++ "\n"

/-- A diagnostic as plain text. A blank line ends a warning. -/
def render : Diagnostic → String
  | .warn message options =>
    let label := if options.deprecation then "DEPRECATION WARNING" else "WARNING"
    let origin := options.span.elim "" fun span => indented s!"at {span}"
    let stack := options.stack.elim "" fun stack => String.join ((Text.lines stack).map indented)
    s!"{label}: {message}\n" ++ origin ++ stack ++ "\n"
  | .debug message options => s!"{options.span} DEBUG: {message}\n"

end Diagnostic

end Stylesheet
