import Stylesheet.IoError
import Stylesheet.Report.Logger
import Stylesheet.Report.Message
import Stylesheet.Text.Utf8

/-!
# Dispatch

Each diagnostic goes to exactly one place: to the logger's action for its channel if there is one,
and to the default channel otherwise. A place that fails makes the delivery fail; nothing is sent
twice or kept for later.
-/

namespace Stylesheet

/-- A diagnostic that could not be delivered. -/
inductive ReportError where
  | callback (channel : Channel) (message : String)
  | fallback (channel : Channel) (error : IoError)
deriving DecidableEq, Repr

namespace ReportError

def channel : ReportError → Channel
  | .callback channel _ => channel
  | .fallback channel _ => channel

/-- What the logger or the default channel said. -/
def cause : ReportError → String
  | .callback _ message => message
  | .fallback _ error => error.message

def message : ReportError → String
  | .callback channel message => s!"{channel.name} callback failed: {message}"
  | .fallback channel error => s!"failed to write {channel.name} message: {error.message}"

end ReportError

variable {σ : Type}

/-- A stream of bytes that a host keeps open. -/
structure ByteStream (σ : Type) where
  write : List UInt8 → HostM IoError σ Unit
  flush : HostM IoError σ Unit

/-- Where diagnostics go that the logger does not take. -/
abbrev DefaultChannel (σ : Type) := Diagnostic → HostM IoError σ Unit

/-- The default channel that writes plain text to a stream and flushes it after each diagnostic. -/
def ByteStream.channel (stream : ByteStream σ) : DefaultChannel σ := fun diagnostic => do
  stream.write (Text.Utf8.encode diagnostic.render)
  stream.flush

structure Dispatcher (σ : Type) where
  logger : Logger σ
  fallback : DefaultChannel σ

namespace Dispatcher

/-- Hands a diagnostic to its one place. -/
def deliver (dispatcher : Dispatcher σ) (diagnostic : Diagnostic) : HostM ReportError σ Unit :=
  match dispatcher.logger.action? diagnostic with
  | some act => act.adaptExcept (.callback diagnostic.channel)
  | none => (dispatcher.fallback diagnostic).adaptExcept (.fallback diagnostic.channel)

/-- Reports a warning, with the trace of the moment. -/
def warn (dispatcher : Dispatcher σ) (message : String) (span : Option Span) (deprecation : Bool)
    (stack : String) : HostM ReportError σ Unit :=
  dispatcher.deliver (.warn message ⟨deprecation, span, some stack⟩)

/-- Reports a debug message. -/
def debug (dispatcher : Dispatcher σ) (message : String) (span : Span) :
    HostM ReportError σ Unit :=
  dispatcher.deliver (.debug message ⟨span⟩)

/-- Reports a warning about a value. -/
def warnValue [Loggable α] (dispatcher : Dispatcher σ) (value : α) (span : Option Span)
    (deprecation : Bool) (stack : String) : HostM ReportError σ Unit :=
  dispatcher.warn (messageOf value) span deprecation stack

/-- Reports a debug message about a value. -/
def debugValue [Loggable α] (dispatcher : Dispatcher σ) (value : α) (span : Span) :
    HostM ReportError σ Unit :=
  dispatcher.debug (messageOf value) span

end Dispatcher

end Stylesheet
