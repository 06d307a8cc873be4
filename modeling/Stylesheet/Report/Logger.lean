import Stylesheet.Report.Diagnostic

/-!
# Loggers

A host takes part in a compilation with a state of its own type. Each of its actions may change
that state and may fail, and keeps the changes it made before it failed. A logger offers an action
for warnings, for debug messages, for both or for neither; an absent one leaves its diagnostics to
the default channel.
-/

namespace Stylesheet

/-- Actions of a host with states `σ` that may fail with an `ε`. -/
abbrev HostM (ε σ : Type) : Type → Type := EStateM ε σ

structure Logger (σ : Type) where
  onWarn : Option (String → WarnOptions → HostM String σ Unit) := none
  onDebug : Option (String → DebugOptions → HostM String σ Unit) := none

namespace Logger

variable {σ : Type}

/-- The action that a logger offers for a diagnostic. -/
def action? (logger : Logger σ) : Diagnostic → Option (HostM String σ Unit)
  | .warn message options => logger.onWarn.map fun act => act message options
  | .debug message options => logger.onDebug.map fun act => act message options

/-- Whether a logger takes the diagnostics of a channel. -/
def takes (logger : Logger σ) : Channel → Bool
  | .warn => logger.onWarn.isSome
  | .debug => logger.onDebug.isSome

/-- The logger that takes every diagnostic and does nothing with it. -/
def silent : Logger σ := ⟨some fun _ _ => pure (), some fun _ _ => pure ()⟩

/-- What a logger looks like to someone who inspects it. -/
def describe (logger : Logger σ) : String :=
  s!"Logger \x7b warn: {logger.takes .warn}, debug: {logger.takes .debug} \x7d"

theorem isSome_action? (logger : Logger σ) (diagnostic : Diagnostic) :
    (logger.action? diagnostic).isSome = logger.takes diagnostic.channel := by
  cases diagnostic <;> simp [action?, takes, Diagnostic.channel]

end Logger

end Stylesheet
