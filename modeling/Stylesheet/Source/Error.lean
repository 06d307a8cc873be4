import Stylesheet.Source.UrlGrammar

/-!
# Requests that no source file can meet

Whoever asks for a location or a span names places in a file. These are the ways in which a place
can fail to exist and in which the parts of a span can contradict each other.
-/

namespace Stylesheet

/-- The first contradiction between the parts of a span. -/
inductive SpanFlaw where
  | reversed
  | startBeyondOffset
  | wrongLength
  | wrongEnd
  | misaligned
deriving DecidableEq, Repr

def SpanFlaw.reason : SpanFlaw → String
  | .reversed => "end precedes start"
  | .startBeyondOffset => "start line and column exceed its offset"
  | .wrongLength => "text length differs from the covered range"
  | .wrongEnd => "end location does not follow from start and text"
  | .misaligned => "context does not contain the text at its start column"

inductive SourceError where
  | outOfRange (offset length : Nat)
  | invalidRange (start stop length : Nat)
  | splitsCodePoint (offset : Nat)
  | invalidUrl (url : String) (fault : UrlFault)
  | inconsistent (flaw : SpanFlaw)
deriving DecidableEq, Repr

def SourceError.message : SourceError → String
  | .outOfRange offset length => s!"offset {offset} is out of range for a file of length {length}"
  | .invalidRange start stop length =>
    s!"invalid range {start}..{stop} for a file of length {length}"
  | .splitsCodePoint offset => s!"offset {offset} falls inside a single code point"
  | .invalidUrl url fault => s!"invalid source URL `{url}`: {fault.message}"
  | .inconsistent flaw => s!"inconsistent span: {flaw.reason}"

end Stylesheet
