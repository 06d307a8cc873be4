import Stylesheet.Evaluation.Arithmetic
import Stylesheet.Report.Dispatcher
import Stylesheet.Syntax.Cursor

/-!
# Why a compilation stops

An error of the stylesheet names the place in it. The other errors come from the host, from the
files, or from the compiler itself.
-/

namespace Stylesheet

inductive CompileError where
  | malformed (fault : ParseFault) (span : Span)
  | undefinedVariable (name : String) (span : Span)
  | undefinedMixin (name : String) (span : Span)
  | operation (fault : OperationFault) (span : Span)
  | report (error : ReportError)
  | location (error : SourceError)
  | io (error : IoError)
  | cancelled
  /-- Mixins that include each other without end. -/
  | tooDeep
deriving DecidableEq

namespace CompileError

def message : CompileError → String
  | malformed fault span => s!"{fault.message}\n    at {span}"
  | undefinedVariable name span => s!"Undefined variable `${name}`\n    at {span}"
  | undefinedMixin name span => s!"Undefined mixin `{name}`\n    at {span}"
  | operation fault span => s!"{fault.message}\n    at {span}"
  | report error => s!"Diagnostic reporting failed: {error.message}"
  | location error => s!"Internal location error: {error.message}"
  | io error => s!"I/O error: {error.message}"
  | cancelled => "Compilation cancelled"
  | tooDeep => "Mixins are included too deeply"

/-- The place in the stylesheet that is at fault, if one is. -/
def span? : CompileError → Option Span
  | malformed _ span | undefinedVariable _ span | undefinedMixin _ span | operation _ span =>
    some span
  | _ => none

/-- What was said by the part of the compiler or the host that failed, if one did. -/
def cause? : CompileError → Option String
  | report error => some error.message
  | location error => some error.message
  | io error => some error.message
  | _ => none

end CompileError

end Stylesheet
