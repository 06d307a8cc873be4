import Stylesheet.Source.Error
import Stylesheet.Source.Location
import Stylesheet.Source.Url

/-!
# Spans

A span is a stretch of a file from one location to another. It carries the text between them and
may carry the lines around it, its context. A span is sound when its parts do not contradict each
other; `Span.of` accepts sound parts only, and reports the first flaw of others.
-/

namespace Stylesheet

namespace Span

/-- Whether `text` stands at a column of the first line of a context. -/
def standsAt (column : Nat) (text context : List Char) : Bool :=
  match Text.cut? Text.unitSize column context with
  | some (front, rest) => !front.contains '\n' && text.isPrefixOf rest
  | none => false

/-- Whether `text` stands at a column of a line behind the first. -/
def standsBelow (column : Nat) (text : List Char) : List Char → Bool
  | [] => false
  | c :: context =>
    (c == '\n' && standsAt column text context) || standsBelow column text context

/-- Whether `text` stands at a column of some line of a context. It may go on over further lines. -/
def isAligned (column : Nat) (text context : List Char) : Bool :=
  standsAt column text context || standsBelow column text context

/-- The first flaw of the two locations and the text between them. A location lies behind as many
line feeds as its line counts and as many other code units as its column counts, so its offset is
at least their sum. Sums are compared as they are kept. -/
def rangeFlaw? (start stop : Location) (text : List Char) : Option SpanFlaw :=
  if stop.offset < start.offset then some .reversed
  else if start.offset < wrap (start.line + start.column) then some .startBeyondOffset
  else if Text.unitLength text ≠ stop.offset - start.offset then some .wrongLength
  else if wrap stop.line ≠ wrap (start.advance text).line ∨
      wrap stop.column ≠ wrap (start.advance text).column then some .wrongEnd
  else none

/-- The flaw of a context: it has to hold the text where the text starts. -/
def contextFlaw? (start : Location) (text : List Char) : Option String → Option SpanFlaw
  | none => none
  | some context =>
    if isAligned start.column text context.toList then none else some .misaligned

/-- The first flaw of the parts of a span. -/
def flaw? (start stop : Location) (text : String) (context : Option String) : Option SpanFlaw :=
  (rangeFlaw? start stop text.toList).or (contextFlaw? start text.toList context)

end Span

structure Span where
  start : Location
  stop : Location
  url : Option Url
  text : String
  context : Option String
  isSound : Span.flaw? start stop text context = none
deriving DecidableEq

namespace Span

/-- A place of a file as a reader sees it; a file without a URL is shown as a dash. -/
def describe (url : Option Url) (l : Location) : String :=
  let name := url.elim "-" Url.text
  s!"{name} {l}"

instance : ToString Span := ⟨fun span => describe span.url span.start⟩

/-- The span with the given parts, if they are sound. -/
def of (start stop : Location) (url : Option Url) (text : String) (context : Option String) :
    Except SourceError Span :=
  match h : flaw? start stop text context with
  | none => .ok ⟨start, stop, url, text, context, h⟩
  | some flaw => .error (.inconsistent flaw)

/-- The length in UTF-16 code units. -/
def length (span : Span) : Nat := span.stop.offset - span.start.offset

/-- An empty span is a point between two characters. -/
def isEmpty (span : Span) : Bool := span.start.offset == span.stop.offset

theorem flaw?_none_of_flaw? {start stop : Location} {text : String} {context : Option String}
    (h : flaw? start stop text context = none) : flaw? start stop text none = none :=
  Option.or_eq_none_iff.mpr ⟨(Option.or_eq_none_iff.mp h).1, rfl⟩

def withoutContext (span : Span) : Span :=
  { span with context := none, isSound := flaw?_none_of_flaw? span.isSound }

theorem of_eq_ok_iff {start stop : Location} {url : Option Url} {text : String}
    {context : Option String} {span : Span} :
    of start stop url text context = .ok span ↔
      span.start = start ∧ span.stop = stop ∧ span.url = url ∧ span.text = text ∧
        span.context = context := by
  unfold of
  constructor
  · intro h
    split at h
    · cases h
      simp
    · contradiction
  · rintro ⟨rfl, rfl, rfl, rfl, rfl⟩
    split
    · rfl
    · rename_i flaw hflaw
      exact absurd (span.isSound.symm.trans hflaw) (by simp)

end Span

end Stylesheet
