import Stylesheet.Evaluation.Statement
import Stylesheet.Syntax.Parser

/-!
# Compiling stylesheets

A source text is parsed and then evaluated for a host. An error of the parser stops a compilation
before the host hears of it.
-/

namespace Stylesheet

/-- What a host brings to a compilation. -/
structure CompileOptions (σ : Type) where
  logger : Logger σ
  /-- Where the diagnostics go that the logger does not take. -/
  fallback : DefaultChannel σ
  /-- Whether spans carry the lines around them. -/
  includeContext : Bool := false
  /-- Whether the host has cancelled, when it is asked. -/
  isCancelled : σ → Bool := fun _ => false
  /-- What has become of the host when it is asked. Others, such as another thread, may have acted
  on it since it was last heard of. -/
  meanwhile : σ → σ := id

namespace CompileOptions

variable {σ : Type}

/-- The setting in which a source text is evaluated. -/
def setting (options : CompileOptions σ) (url : Option Url) (source : String) : Setting σ where
  index := LineIndex.ofString source
  url := url
  includeContext := options.includeContext
  dispatch := Dispatcher.deliver ⟨options.logger, options.fallback⟩
  isCancelled := options.isCancelled
  meanwhile := options.meanwhile

end CompileOptions

variable {σ : Type}

/-- The error of a compilation whose source text cannot be parsed. -/
def parseFailure (setting : Setting σ) (error : ParseError) : CompileError :=
  match setting.span error.range with
  | .ok span => .malformed error.fault span
  | .error error => error

/-- What a source text compiles to in its setting, and the host after the compilation. -/
def Setting.compile (setting : Setting σ) (source : String) (host : σ) :
    Except CompileError String × σ :=
  match parse source with
  | .error error => (.error (parseFailure setting error), host)
  | .ok statements =>
    match evaluate setting statements { host := host } with
    | .ok css machine => (.ok css, machine.host)
    | .error error machine => (.error error, machine.host)

/-- The style sheet that a source text compiles to, and the host after the compilation. -/
def compile (options : CompileOptions σ) (url : Option Url) (source : String) (host : σ) :
    Except CompileError String × σ :=
  (options.setting url source).compile source host

end Stylesheet
