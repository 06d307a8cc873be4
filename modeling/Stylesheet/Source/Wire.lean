import Stylesheet.Source.Document
import Stylesheet.Source.LineIndex

/-!
# Spans on the wire

Between processes a span travels as a document: a record of its two locations, its text, and its
URL and context if it has them. Reading a document accepts sound spans only and repairs nothing.
-/

namespace Stylesheet

/-! ## Locations -/

inductive LocationField where
  | offset
  | line
  | column
deriving DecidableEq

def LocationField.name : LocationField → String
  | .offset => "offset"
  | .line => "line"
  | .column => "column"

def Location.layout : Layout LocationField where
  fields := [.offset, .line, .column]
  name := LocationField.name
  Value _ := Nat
  read _ := Document.count
  mem_fields field := by cases field <;> decide
  nodup_names := by decide

namespace Document

open Location in
def location (document : Document) : Except WireError Location := do
  let found ← layout.find document
  return ⟨← present (found .offset), ← present (found .line), ← present (found .column)⟩

/-- A URL, which has to be a valid one. -/
def url (document : Document) : Except WireError Url := do
  let s ← document.string
  match Url.parse s with
  | .ok url => .ok url
  | .error fault => .error (.source (.invalidUrl s fault))

end Document

def Location.toDocument (l : Location) : Document :=
  .record [("offset", .integer l.offset), ("line", .integer l.line), ("column", .integer l.column)]

/-! ## Spans -/

inductive SpanField where
  | start
  | stop
  | url
  | text
  | context
deriving DecidableEq

namespace SpanField

def name : SpanField → String
  | .start => "start"
  | .stop => "end"
  | .url => "url"
  | .text => "text"
  | .context => "context"

def Value : SpanField → Type
  | .start | .stop => Location
  | .url => Option Url
  | .text => String
  | .context => Option String

def read : (field : SpanField) → Document → Except WireError field.Value
  | .start => Document.location
  | .stop => Document.location
  | .url => Document.optional Document.url
  | .text => Document.string
  | .context => Document.optional Document.string

end SpanField

namespace Span

def layout : Layout SpanField where
  fields := [.start, .stop, .url, .text, .context]
  name := SpanField.name
  Value := SpanField.Value
  read := SpanField.read
  mem_fields field := by cases field <;> decide
  nodup_names := by decide

/-- The parts of a span, which may contradict each other. -/
structure Parts where
  start : Location
  stop : Location
  url : Option Url
  text : String
  context : Option String
deriving DecidableEq

end Span

/-- The parts of a span that a document says. The two locations and the text have to be there. -/
def Document.spanParts (document : Document) : Except WireError Span.Parts := do
  let found ← Span.layout.find document
  let start ← present (found .start)
  let stop ← present (found .stop)
  let text ← present (found .text)
  return ⟨start, stop, (found .url).join, text, (found .context).join⟩

namespace Span

/-- Reads a span, whose parts have to agree. -/
def ofDocument (document : Document) : Except WireError Span := do
  let parts ← document.spanParts
  (Span.of parts.start parts.stop parts.url parts.text parts.context).mapError .source

def toDocument (span : Span) : Document :=
  .record ([("start", span.start.toDocument), ("end", span.stop.toDocument)] ++
    (span.url.map fun url => ("url", Document.text url.text)).toList ++
    [("text", .text span.text)] ++
    (span.context.map fun context => ("context", Document.text context)).toList)

end Span

end Stylesheet
