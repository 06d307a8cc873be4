import Stylesheet.Bindings
import Stylesheet.Css
import Stylesheet.Evaluation.Error
import Stylesheet.Report.CallStack
import Stylesheet.Source.LineIndex

/-!
# The state of an evaluation

What stays the same during an evaluation is its setting, and what changes is the machine: the
variables, the mixins, the rules made so far, where the evaluation stands among rules and mixins,
and the state of the host.
-/

namespace Stylesheet

/-! ## Variables -/

/-- The global variables, and those of the open blocks of the member under way, innermost first. -/
structure Scopes where
  globals : Bindings Value := {}
  locals : List (Bindings Value) := []

namespace Scopes

/-- The value of a variable in the innermost scope that has it. -/
def get? (scopes : Scopes) (name : String) : Option Value :=
  (scopes.locals.findSome? (·.get? name)).or (scopes.globals.get? name)

/-- Binds a name in the innermost open block that has it, if one has. -/
def rebind? (name : String) (value : Value) :
    List (Bindings Value) → Option (List (Bindings Value))
  | [] => none
  | scope :: scopes =>
    if scope.contains name then some (scope.insert name value :: scopes)
    else (rebind? name value scopes).map (scope :: ·)

/-- Assigns to the innermost open block that has the name, or else to the innermost open block, or
to the globals if no block is open. -/
def assign (scopes : Scopes) (name : String) (value : Value) : Scopes :=
  match rebind? name value scopes.locals, scopes.locals with
  | some locals, _ => { scopes with locals := locals }
  | none, scope :: locals => { scopes with locals := scope.insert name value :: locals }
  | none, [] => { scopes with globals := scopes.globals.insert name value }

/-- Opens a block. -/
def enter (scopes : Scopes) : Scopes := { scopes with locals := {} :: scopes.locals }

/-- Closes the innermost block. -/
def leave (scopes : Scopes) : Scopes := { scopes with locals := scopes.locals.tail }

/-- The scopes of a mixin, which sees the globals and a block of its own. -/
def isolate (scopes : Scopes) : Scopes := { scopes with locals := [{}] }

end Scopes

/-! ## Setting and machine -/

structure Setting (σ : Type) where
  index : LineIndex
  url : Option Url
  includeContext : Bool
  /-- Takes a diagnostic to its place. -/
  dispatch : Diagnostic → HostM ReportError σ Unit
  /-- Whether the host has cancelled, when it is asked. -/
  isCancelled : σ → Bool
  /-- What has become of the host when it is asked, through others than the evaluation. -/
  meanwhile : σ → σ := id

structure Machine (σ : Type) where
  host : σ
  scopes : Scopes := {}
  mixins : Bindings (List Statement) := {}
  /-- All rules entered so far, in the order of entry. -/
  rules : Array CssRule := #[]
  /-- The resolved selectors of the rules under way, innermost first. -/
  selectors : List String := []
  /-- The index of the innermost rule under way. -/
  currentRule : Option Nat := none
  stack : CallStack := {}

/-- Steps of an evaluation. A step that fails keeps the changes it made. -/
abbrev Run (σ : Type) : Type → Type := EStateM CompileError (Machine σ)

variable {σ : Type}

namespace Setting

/-- The span of a range of the source text. -/
def span (setting : Setting σ) (range : Range) : Except CompileError Span :=
  Except.mapError .location do
    let start ← setting.index.unitOffset range.start
    let stop ← setting.index.unitOffset range.stop
    setting.index.span setting.url start stop setting.includeContext

/-- Stops if the host has cancelled. -/
def checkCancelled (setting : Setting σ) : HostM CompileError σ Unit := do
  modify setting.meanwhile
  if setting.isCancelled (← get) then throw .cancelled

/-- Hands a diagnostic to the host. -/
def deliver (setting : Setting σ) (diagnostic : Diagnostic) : HostM CompileError σ Unit :=
  (setting.dispatch diagnostic).adaptExcept .report

/-- The warning at a span, with the trace of the moment. -/
def warning (message : String) (span : Span) (deprecation : Bool) (stack : CallStack) :
    Diagnostic :=
  .warn message ⟨deprecation, some span, some (stack.trace span)⟩

end Setting

namespace Machine

/-- Lets the host act. -/
def onHost (act : HostM CompileError σ α) : Run σ α := fun machine =>
  match act machine.host with
  | .ok a host => .ok a { machine with host := host }
  | .error error host => .error error { machine with host := host }

/-- Runs a body between an entry and an exit. The exit is made in any case, and is given what was
kept of the machine before the entry. -/
def bracket (keep : Machine σ → κ) (enter : Machine σ → Machine σ)
    (leave : κ → Machine σ → Machine σ) (body : Run σ α) : Run σ α := fun machine =>
  let kept := keep machine
  match body (enter machine) with
  | .ok a after => .ok a (leave kept after)
  | .error error after => .error error (leave kept after)

/-- Starts a rule, which becomes the innermost one. -/
def enterRule (selector : String) (machine : Machine σ) : Machine σ :=
  { machine with
    rules := machine.rules.push { selector := selector }
    currentRule := some machine.rules.size
    selectors := selector :: machine.selectors
    scopes := machine.scopes.enter }

/-- Ends the innermost rule, back in the rule around it, if there is one. -/
def leaveRule (outer : Option Nat) (machine : Machine σ) : Machine σ :=
  { machine with
    currentRule := outer
    selectors := machine.selectors.tail
    scopes := machine.scopes.leave }

/-- Starts a mixin, which has a frame and scopes of its own. -/
def enterMixin (name : String) (callSite : Span) (machine : Machine σ) : Machine σ :=
  { machine with
    stack := machine.stack.push s!"{name}()" callSite
    scopes := machine.scopes.isolate }

/-- Ends the innermost mixin, back in the scopes of its caller. -/
def leaveMixin (caller : List (Bindings Value)) (machine : Machine σ) : Machine σ :=
  { machine with
    stack := machine.stack.pop.2
    scopes := { machine.scopes with locals := caller } }

/-- Adds a declaration to a rule. -/
def declare (rule : Nat) (property : String) (value : Value) (machine : Machine σ) : Machine σ :=
  { machine with rules := machine.rules.modify rule (·.declare property value.display) }

end Machine

end Stylesheet
