import Stylesheet.Source.Search
import Stylesheet.Source.Span

/-!
# Line indices

The index of a file holds where its lines start, so that the line of an offset is found by binary
search and only that line is walked. It turns offsets in UTF-16 code units into locations, into
byte offsets and back, and builds the spans of the file.
-/

namespace Stylesheet

/-- Where a line starts, and the text from there to the end of the file. -/
structure LineStart where
  unit : Nat
  byte : Nat
  rest : List Char
deriving DecidableEq, Repr

namespace LineStart

/-- The starts of the lines behind the line feeds of a text that stands at the given offsets. -/
def following (unit byte : Nat) : List Char → List LineStart
  | [] => []
  | c :: s =>
    let behind := following (unit + Text.unitSize c) (byte + c.utf8Size) s
    if c = '\n' then ⟨unit + Text.unitSize c, byte + c.utf8Size, s⟩ :: behind else behind

/-- The starts of all lines of a text. -/
def all (s : List Char) : List LineStart := ⟨0, 0, s⟩ :: following 0 0 s

end LineStart

structure LineIndex where
  source : String
  starts : Array LineStart
  unitLength : Nat
  byteLength : Nat
deriving DecidableEq, Repr

namespace LineIndex

def ofString (source : String) : LineIndex where
  source := source
  starts := (LineStart.all source.toList).toArray
  unitLength := Text.unitLength source.toList
  byteLength := Text.byteLength source.toList

/-- The length of the file in UTF-16 code units. -/
def length (index : LineIndex) : Nat := index.unitLength

def isEmpty (index : LineIndex) : Bool := index.length == 0

def lineCount (index : LineIndex) : Nat := index.starts.size

/-- The last line that starts where a condition still holds, with its number. -/
def lastLine (index : LineIndex) (p : LineStart → Bool) : Nat × LineStart :=
  let line := partitionPoint p index.starts - 1
  (line, index.starts[line]?.getD ⟨0, 0, index.source.toList⟩)

/-- The line that holds an offset in code units. -/
def lineOfUnit (index : LineIndex) (offset : Nat) : Nat × LineStart :=
  index.lastLine fun start => start.unit ≤ offset

/-- The line that holds an offset in bytes. -/
def lineOfByte (index : LineIndex) (offset : Nat) : Nat × LineStart :=
  index.lastLine fun start => start.byte ≤ offset

/-- The location of an offset. The end of the file is a location too. -/
def locate (index : LineIndex) (offset : Nat) : Except SourceError Location :=
  if index.length < offset then .error (.outOfRange offset index.length)
  else
    let (line, start) := index.lineOfUnit offset
    .ok ⟨offset, line, offset - start.unit⟩

/-- The byte offset of an offset in code units, and the text behind it. -/
def seek (index : LineIndex) (offset : Nat) : Except SourceError (Nat × List Char) := do
  let location ← index.locate offset
  let start := (index.lineOfUnit offset).2
  match Text.cut? Text.unitSize location.column start.rest with
  | some (front, rest) => return (start.byte + Text.byteLength front, rest)
  | none => throw (.splitsCodePoint offset)

/-- The byte offset of an offset in code units. -/
def byteOffset (index : LineIndex) (offset : Nat) : Except SourceError Nat := do
  return (← index.seek offset).1

/-- The offset in code units of a byte offset. -/
def unitOffset (index : LineIndex) (offset : Nat) : Except SourceError Nat :=
  if index.byteLength < offset then .error (.outOfRange offset index.byteLength)
  else
    let start := (index.lineOfByte offset).2
    match Text.cut? Char.utf8Size (offset - start.byte) start.rest with
    | some (front, _) => .ok (start.unit + Text.unitLength front)
    | none => .error (.splitsCodePoint offset)

/-- The byte offset at which a line ends, in front of its line feed. -/
def lineEnd (index : LineIndex) (line : Nat) : Nat :=
  match index.starts[line + 1]? with
  | some next => next.byte - 1
  | none => index.byteLength

/-- The first bytes of a text. -/
def front (bytes : Nat) (s : List Char) : String :=
  String.ofList ((Text.cut? Char.utf8Size bytes s).getD ([], [])).1

/-- All lines that a stretch from one location to another touches, without the last line feed. -/
def contextOf (index : LineIndex) (start stop : Location) : String :=
  let first := (index.lineOfUnit start.offset).2
  front (index.lineEnd stop.line - first.byte) first.rest

/-- The span from one offset to another. -/
def span (index : LineIndex) (url : Option Url) (start stop : Nat) (includeContext : Bool) :
    Except SourceError Span :=
  if stop < start ∨ index.length < stop then .error (.invalidRange start stop index.length)
  else do
    let first ← index.locate start
    let last ← index.locate stop
    let (startByte, rest) ← index.seek start
    let (stopByte, _) ← index.seek stop
    Span.of first last url (front (stopByte - startByte) rest)
      (if includeContext then some (index.contextOf first last) else none)

end LineIndex

/-- The location of an offset in a text. -/
def locate (text : String) (offset : Nat) : Except SourceError Location :=
  (LineIndex.ofString text).locate offset

/-- The span from one offset of a text to another. -/
def span (text : String) (url : Option Url) (start stop : Nat) (includeContext : Bool) :
    Except SourceError Span :=
  (LineIndex.ofString text).span url start stop includeContext

end Stylesheet
