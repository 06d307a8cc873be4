import Stylesheet.Report.Dispatcher

/-!
# A host that records

The recorder is a host with a logger and a byte stream of its own. It remembers every diagnostic
its logger takes and every byte its stream takes, and it can be told to fail at some call, to run
out of room at some byte, to refuse to flush, and to cancel at some delivery.
-/

namespace Stylesheet

/-- What the recorder has seen. -/
structure Recorder where
  events : Array Diagnostic := #[]
  written : Array UInt8 := #[]
  warnCalls : Nat := 0
  debugCalls : Nat := 0
  /-- The calls that were recorded and the flushes, together. -/
  deliveries : Nat := 0
  cancelled : Bool := false

namespace Recorder

/-- What an action of the recorder's logger does. -/
inductive Slot where
  /-- Nothing at all. -/
  | ignore
  /-- Records the diagnostic. -/
  | record
  /-- Records the diagnostic and fails at a call, counted from zero. -/
  | recordAndFail (call : Nat) (message : String)
deriving DecidableEq, Repr

structure Setup where
  /-- The bytes that the stream takes in all, if they are limited. -/
  capacity : Option Nat := none
  refusesFlush : Bool := false
  /-- The delivery, counted from one, at which the recorder cancels. -/
  cancelAt : Option Nat := none
deriving DecidableEq, Repr

/-- The recorder before it has seen anything. -/
def start (setup : Setup) : Recorder := { cancelled := setup.cancelAt == some 0 }

variable (setup : Setup)

def countDelivery (recorder : Recorder) : Recorder :=
  let deliveries := recorder.deliveries + 1
  { recorder with
    deliveries := deliveries
    cancelled := recorder.cancelled || setup.cancelAt == some deliveries }

def calls (recorder : Recorder) : Channel → Nat
  | .warn => recorder.warnCalls
  | .debug => recorder.debugCalls

def countCall (recorder : Recorder) : Channel → Recorder
  | .warn => { recorder with warnCalls := recorder.warnCalls + 1 }
  | .debug => { recorder with debugCalls := recorder.debugCalls + 1 }

def remember (recorder : Recorder) (diagnostic : Diagnostic) : Recorder :=
  { recorder with events := recorder.events.push diagnostic }

/-- The action of a slot. -/
def Slot.act (slot : Slot) (diagnostic : Diagnostic) : HostM String Recorder Unit := do
  let before := (← get).calls diagnostic.channel
  match slot with
  | .ignore => pure ()
  | .record =>
    modify fun r => ((r.remember diagnostic).countCall diagnostic.channel).countDelivery setup
  | .recordAndFail call message =>
    modify fun r => ((r.remember diagnostic).countCall diagnostic.channel).countDelivery setup
    if before = call then throw message

/-- The logger with the given slots. -/
def logger (warn debug : Option Slot) : Logger Recorder where
  onWarn := warn.map fun slot message options => slot.act setup (.warn message options)
  onDebug := debug.map fun slot message options => slot.act setup (.debug message options)

/-- The stream takes what still fits and fails at the first byte that does not. -/
def stream : ByteStream Recorder where
  write bytes := do
    let taken := (← get).written.size
    let room := setup.capacity.elim bytes.length (· - taken)
    modify fun r => { r with written := r.written ++ bytes.take room }
    if room < bytes.length then throw (.other "broken pipe")
  flush := do
    modify (·.countDelivery setup)
    if setup.refusesFlush then throw (.other "flush refused")

end Recorder

end Stylesheet
