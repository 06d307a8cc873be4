import Stylesheet.Proofs.Source.Document
import Stylesheet.Proofs.Source.Stretches
import Stylesheet.Source.Wire

/-!
# Documents of spans

Reading a document is finding in it the parts of a sound span (`spanParts_eq_ok_iff`). It follows
that a span comes back from its document, and that a document from which a span is read is the
document of that span but for what it says beyond it (`wire_round_trip`).
-/

namespace Stylesheet

open Text

/-! ## Counts -/

namespace Location

/-- A location that can be written down. -/
structure IsCounted (l : Location) : Prop where
  offset_lt : l.offset < countBound
  line_lt : l.line < countBound
  column_lt : l.column < countBound

theorem IsCounted.of_le {l : Location} (hsum : l.line + l.column ≤ l.offset)
    (h : l.offset < countBound) : l.IsCounted := ⟨h, by omega, by omega⟩

theorem line_add_column_le_next {l : Location} (h : l.line + l.column ≤ l.offset) (c : Char) :
    (l.next c).line + (l.next c).column ≤ (l.next c).offset := by
  unfold next
  split <;> simp only <;> omega

theorem line_add_column_le_advance {l : Location} (h : l.line + l.column ≤ l.offset)
    (s : List Char) : (l.advance s).line + (l.advance s).column ≤ (l.advance s).offset := by
  induction s generalizing l with
  | nil => exact h
  | cons c s ih => exact ih (line_add_column_le_next h c)

end Location

namespace Span

/-- The stop of a flawless stretch is the location behind its text, unless a sum wraps around. -/
theorem rangeFlaw?_eq_none_iff {start stop : Location} {text : List Char}
    (hsum : start.line + start.column < countBound) (hstop : stop.IsCounted) :
    rangeFlaw? start stop text = none ↔
      start.line + start.column ≤ start.offset ∧ stop = start.advance text := by
  have hoffset := Location.advance_offset start text
  rw [rangeFlaw?, wrap_of_lt hsum]
  constructor
  · intro h
    split_ifs at h with hreversed hbeyond hlength hend
    have hstart := Nat.le_of_not_lt hbeyond
    have hreached : (start.advance text).offset = stop.offset := by omega
    have hcounted : (start.advance text).IsCounted :=
      .of_le (Location.line_add_column_le_advance hstart text) (hreached ▸ hstop.offset_lt)
    rw [wrap_of_lt hstop.line_lt, wrap_of_lt hstop.column_lt, wrap_of_lt hcounted.line_lt,
      wrap_of_lt hcounted.column_lt] at hend
    obtain ⟨hline, hcolumn⟩ := not_or.mp hend
    refine ⟨hstart, ?_⟩
    obtain ⟨offset, line, column⟩ := stop
    exact Location.mk.injEq .. ▸ ⟨hreached.symm, not_not.mp hline, not_not.mp hcolumn⟩
  · rintro ⟨hstart, rfl⟩
    rw [if_neg (by omega), if_neg (by omega), if_neg (by omega), if_neg (by simp)]

end Span

/-! ## URLs -/

theorem Url.parse_text (url : Url) : Url.parse url.text = .ok url := by
  obtain ⟨text, h⟩ := url
  unfold Url.parse
  split
  · rfl
  · rename_i fault hfault
    rw [hfault] at h
    contradiction

theorem Url.text_eq_of_parse {s : String} {url : Url} (h : Url.parse s = .ok url) :
    url.text = s := by
  unfold Url.parse at h
  split at h
  · rw [← Except.ok.inj h]
  · contradiction

/-! ## Reading the parts -/

namespace Document

theorem url_eq_ok_iff {document : Document} {url : Url} :
    document.url = .ok url ↔ document = .text url.text := by
  rw [Document.url, Except.bind_eq_ok_iff]
  constructor
  · rintro ⟨s, hs, hparse⟩
    obtain rfl := string_eq_ok_iff.mp hs
    split at hparse
    · rename_i u hu
      obtain rfl := Except.ok.inj hparse
      rw [Url.text_eq_of_parse hu]
    · contradiction
  · rintro rfl
    exact ⟨url.text, rfl, by rw [url.parse_text]⟩

/-- Whether documents say a value, in one way. -/
def Says {α : Type} (read : Document → Except WireError α) (documents : List Document) (value : α) :
    Prop :=
  ∃ document, documents = [document] ∧ read document = .ok value

/-- Whether documents say a value, or say nothing. -/
def MaySay {α : Type} (read : Document → Except WireError (Option α)) (documents : List Document)
    (value : Option α) : Prop :=
  documents = [] ∧ value = none ∨ Says read documents value

end Document

open Document

theorem Layout.filled_some_iff {ι : Type} {layout : Layout ι} {field : ι}
    {documents : List Document} {value : layout.Value field} :
    layout.Filled field none documents (some value) ↔
      Says (layout.read field) documents value := by
  constructor
  · rintro (_ | hread)
    exact ⟨_, rfl, hread⟩
  · rintro ⟨document, rfl, hread⟩
    exact .read hread

/-- The fields of a location, all of them found. -/
def Location.found (l : Location) : Location.layout.Found
  | .offset => some l.offset
  | .line => some l.line
  | .column => some l.column

theorem location_eq_ok_iff {document : Document} {l : Location} :
    document.location = .ok l ↔
      Location.layout.Fits document ∧
        let fields := Location.layout.fieldsOf document
        Says count (said fields "offset") l.offset ∧ Says count (said fields "line") l.line ∧
          Says count (said fields "column") l.column := by
  simp only [location, Except.bind_eq_ok_iff, present_eq_ok_iff, Layout.find_eq_ok_iff, pure,
    Except.pure, Except.ok.injEq]
  constructor
  · rintro ⟨found, ⟨hfits, hfound⟩, offset, hoffset, line, hline, column, hcolumn, rfl⟩
    refine ⟨hfits, ?_, ?_, ?_⟩
    · exact Layout.filled_some_iff.mp (hoffset ▸ hfound .offset)
    · exact Layout.filled_some_iff.mp (hline ▸ hfound .line)
    · exact Layout.filled_some_iff.mp (hcolumn ▸ hfound .column)
  · rintro ⟨hfits, hoffset, hline, hcolumn⟩
    refine ⟨l.found, ⟨hfits, ?_⟩, _, rfl, _, rfl, _, rfl, rfl⟩
    intro field
    cases field
    · exact Layout.filled_some_iff.mpr hoffset
    · exact Layout.filled_some_iff.mpr hline
    · exact Layout.filled_some_iff.mpr hcolumn

/-- What is found of a field that need not be there. -/
theorem Layout.filled_none_iff {ι : Type} {layout : Layout ι} {field : ι}
    {documents : List Document} {found : Option (layout.Value field)} :
    layout.Filled field none documents found ↔ documents = [] ∧ found = none ∨
      ∃ value, found = some value ∧ Says (layout.read field) documents value := by
  constructor
  · intro h
    cases found with
    | none =>
      cases h
      exact .inl ⟨rfl, rfl⟩
    | some value => exact .inr ⟨value, rfl, filled_some_iff.mp h⟩
  · rintro (⟨rfl, rfl⟩ | ⟨value, rfl, h⟩)
    · exact .kept none
    · exact filled_some_iff.mpr h

theorem Document.maySay_iff {α : Type} {read : Document → Except WireError (Option α)}
    {documents : List Document} {value : Option α} :
    MaySay read documents value ↔ ∃ found : Option (Option α),
      (documents = [] ∧ found = none ∨ ∃ value, found = some value ∧ Says read documents value) ∧
        found.join = value := by
  constructor
  · rintro (⟨rfl, rfl⟩ | h)
    · exact ⟨none, .inl ⟨rfl, rfl⟩, rfl⟩
    · exact ⟨some value, .inr ⟨value, rfl, h⟩, rfl⟩
  · rintro ⟨_, ⟨rfl, rfl⟩ | ⟨value, rfl, h⟩, rfl⟩
    · exact .inl ⟨rfl, rfl⟩
    · exact .inr h

/-- The parts of a span as they are found, with what is found of a URL and of a context. -/
def Span.Parts.found (parts : Span.Parts) (url : Option (Option Url))
    (context : Option (Option String)) : Span.layout.Found
  | .start => some parts.start
  | .stop => some parts.stop
  | .url => url
  | .text => some parts.text
  | .context => context

/-- The parts of a span are found in a document field by field. -/
theorem spanParts_eq_ok_iff {document : Document} {parts : Span.Parts} :
    document.spanParts = .ok parts ↔
      Span.layout.Fits document ∧
        let fields := Span.layout.fieldsOf document
        Says location (said fields "start") parts.start ∧
          Says location (said fields "end") parts.stop ∧
          MaySay (optional Document.url) (said fields "url") parts.url ∧
          Says string (said fields "text") parts.text ∧
          MaySay (optional string) (said fields "context") parts.context := by
  simp only [spanParts, Except.bind_eq_ok_iff, present_eq_ok_iff, Layout.find_eq_ok_iff, pure,
    Except.pure, Except.ok.injEq]
  constructor
  · rintro ⟨found, ⟨hfits, hfound⟩, start, hstart, stop, hstop, text, htext, rfl⟩
    refine ⟨hfits, ?_, ?_, ?_, ?_, ?_⟩
    · exact Layout.filled_some_iff.mp (hstart ▸ hfound .start)
    · exact Layout.filled_some_iff.mp (hstop ▸ hfound .stop)
    · exact maySay_iff.mpr ⟨found .url, Layout.filled_none_iff.mp (hfound .url), rfl⟩
    · exact Layout.filled_some_iff.mp (htext ▸ hfound .text)
    · exact maySay_iff.mpr ⟨found .context, Layout.filled_none_iff.mp (hfound .context), rfl⟩
  · rintro ⟨hfits, hstart, hstop, hurl, htext, hcontext⟩
    obtain ⟨url, hurl, hurl'⟩ := maySay_iff.mp hurl
    obtain ⟨context, hcontext, hcontext'⟩ := maySay_iff.mp hcontext
    refine ⟨parts.found url context, ⟨hfits, ?_⟩, _, rfl, _, rfl, _, rfl, ?_⟩
    · intro field
      cases field
      · exact Layout.filled_some_iff.mpr hstart
      · exact Layout.filled_some_iff.mpr hstop
      · exact Layout.filled_none_iff.mpr hurl
      · exact Layout.filled_some_iff.mpr htext
      · exact Layout.filled_none_iff.mpr hcontext
    · obtain ⟨start, stop, _, text, _⟩ := parts
      exact congrArg₂ (fun url context => Span.Parts.mk start stop url text context) hurl' hcontext'

/-! ## Reading spans -/

namespace Span

def parts (span : Span) : Parts := ⟨span.start, span.stop, span.url, span.text, span.context⟩

/-- A span is read from a document in which its parts are found. -/
theorem ofDocument_eq_ok_iff {document : Document} {span : Span} :
    ofDocument document = .ok span ↔ document.spanParts = .ok span.parts := by
  simp only [ofDocument, Except.bind_eq_ok_iff, Except.mapError_eq_ok_iff, Span.of_eq_ok_iff]
  constructor
  · rintro ⟨⟨_, _, _, _, _⟩, hparts, rfl, rfl, rfl, rfl, rfl⟩
    exact hparts
  · intro h
    exact ⟨span.parts, h, rfl, rfl, rfl, rfl, rfl⟩

end Span

/-- Counts that are read are below their bound. -/
theorem isCounted_of_location {document : Document} {l : Location}
    (h : document.location = .ok l) : l.IsCounted := by
  obtain ⟨-, ⟨_, -, hoffset⟩, ⟨_, -, hline⟩, ⟨_, -, hcolumn⟩⟩ := location_eq_ok_iff.mp h
  exact ⟨(count_eq_ok_iff.mp hoffset).2, (count_eq_ok_iff.mp hline).2,
    (count_eq_ok_iff.mp hcolumn).2⟩

theorem isCounted_of_spanParts {document : Document} {parts : Span.Parts}
    (h : document.spanParts = .ok parts) : parts.start.IsCounted ∧ parts.stop.IsCounted := by
  obtain ⟨-, ⟨_, -, hstart⟩, ⟨_, -, hstop⟩, -⟩ := spanParts_eq_ok_iff.mp h
  exact ⟨isCounted_of_location hstart, isCounted_of_location hstop⟩

/-! ## Spans that come back -/

theorem Document.location_toDocument {l : Location} (h : l.IsCounted) :
    l.toDocument.location = .ok l :=
  location_eq_ok_iff.mpr ⟨trivial, ⟨_, rfl, count_eq_ok_iff.mpr ⟨rfl, h.offset_lt⟩⟩,
    ⟨_, rfl, count_eq_ok_iff.mpr ⟨rfl, h.line_lt⟩⟩,
    ⟨_, rfl, count_eq_ok_iff.mpr ⟨rfl, h.column_lt⟩⟩⟩

/-- What is said of a part that is left out if there is nothing to say. -/
theorem Document.maySay_toList {α : Type} {read : Document → Except WireError α}
    {toDocument : α → Document} (hnull : ∀ a, read .null ≠ .ok a)
    (hread : ∀ a, read (toDocument a) = .ok a) (value : Option α) :
    MaySay (optional read) (value.map toDocument).toList value := by
  cases value with
  | none => exact .inl ⟨rfl, rfl⟩
  | some a => exact .inr ⟨toDocument a, rfl, (optional_eq_ok_iff hnull).mpr (hread a)⟩

theorem Document.url_null (url : Url) : Document.url .null ≠ .ok url := by
  rw [Ne, url_eq_ok_iff]
  intro h
  contradiction

theorem Document.string_null (s : String) : string .null ≠ .ok s := by
  rw [Ne, string_eq_ok_iff]
  intro h
  contradiction

/-- What the document of a span says of its parts. -/
theorem Span.said_toDocument (span : Span) :
    let fields := layout.fieldsOf span.toDocument
    said fields "start" = [span.start.toDocument] ∧ said fields "end" = [span.stop.toDocument] ∧
      said fields "url" = (span.url.map fun url => Document.text url.text).toList ∧
      said fields "text" = [.text span.text] ∧
      said fields "context" = (span.context.map Document.text).toList := by
  rw [toDocument]
  cases span.url <;> cases span.context <;> exact ⟨rfl, rfl, rfl, rfl, rfl⟩

/-- A span whose counts can be written down comes back from its document. -/
theorem Span.ofDocument_toDocument {span : Span} (hstart : span.start.IsCounted)
    (hstop : span.stop.IsCounted) : ofDocument span.toDocument = .ok span := by
  obtain ⟨hsaidStart, hsaidStop, hurl, htext, hcontext⟩ := span.said_toDocument
  rw [ofDocument_eq_ok_iff, spanParts_eq_ok_iff]
  refine ⟨trivial, ⟨_, hsaidStart, location_toDocument hstart⟩,
    ⟨_, hsaidStop, location_toDocument hstop⟩, ?_, ⟨_, htext, string_eq_ok_iff.mpr rfl⟩, ?_⟩
  · rw [hurl]
    exact maySay_toList url_null (fun _ => url_eq_ok_iff.mpr rfl) span.url
  · rw [hcontext]
    exact maySay_toList string_null (fun _ => string_eq_ok_iff.mpr rfl) span.context

theorem Location.isCounted_behind {front : List Char} (h : unitLength front < countBound) :
    (behind front).IsCounted := .of_le (line_add_column_le front) h

/-- The counts of a span of a file can be written down if its stop can. -/
theorem LineIndex.isCounted_of_span {source : String} {url : Option Url} {start stop : Nat}
    {includeContext : Bool} {span : Span} (hstop : stop < countBound)
    (h : (ofString source).span url start stop includeContext = .ok span) :
    span.start.IsCounted ∧ span.stop.IsCounted := by
  obtain ⟨front, text, rest, -, rfl, rfl⟩ := exists_image_of_span h
  refine ⟨Location.isCounted_behind ?_, Location.isCounted_behind hstop⟩
  rw [unitLength_append] at hstop
  omega

/-! ## Documents that are not repaired -/

namespace Document

/-- The fields of a record that say something, in a given order. -/
def givenFields (parts : List (String × Option Document)) : Document :=
  .record (parts.filterMap fun (name, part) => part.map fun document => (name, document))

/-- A location as a record of its three counts, whichever way a document gives it. -/
def asLocation (document : Document) : Document :=
  let fields := Location.layout.fieldsOf document
  givenFields (["offset", "line", "column"].map fun name => (name, fields.lookup name))

/-- What a part says, if it is there and no null. -/
def given : Option Document → Option Document
  | some .null => none
  | part => part

/-- A span as it is written down, whichever way a document gives it: the two locations as records
of their counts, a URL and a context only if they say something, and nothing beyond a span. -/
def asSpan (document : Document) : Document :=
  let fields := Span.layout.fieldsOf document
  givenFields [("start", (fields.lookup "start").map asLocation),
    ("end", (fields.lookup "end").map asLocation), ("url", given (fields.lookup "url")),
    ("text", fields.lookup "text"), ("context", given (fields.lookup "context"))]

theorem Says.lookup_eq {α : Type} {read : Document → Except WireError α}
    {fields : List (String × Document)} {name : String} {value : α}
    (h : Says read (said fields name) value) :
    ∃ document, fields.lookup name = some document ∧ read document = .ok value := by
  obtain ⟨document, hsaid, hread⟩ := h
  refine ⟨document, ?_, hread⟩
  rw [lookup_eq_head?_said, hsaid, List.head?_cons]

theorem asLocation_of_location {document : Document} {l : Location}
    (h : document.location = .ok l) : document.asLocation = l.toDocument := by
  obtain ⟨-, hoffset, hline, hcolumn⟩ := location_eq_ok_iff.mp h
  obtain ⟨_, hoffset, hcount⟩ := hoffset.lookup_eq
  obtain ⟨rfl, -⟩ := count_eq_ok_iff.mp hcount
  obtain ⟨_, hline, hcount⟩ := hline.lookup_eq
  obtain ⟨rfl, -⟩ := count_eq_ok_iff.mp hcount
  obtain ⟨_, hcolumn, hcount⟩ := hcolumn.lookup_eq
  obtain ⟨rfl, -⟩ := count_eq_ok_iff.mp hcount
  simp [asLocation, givenFields, hoffset, hline, hcolumn, Location.toDocument]

theorem Says.map_asLocation {fields : List (String × Document)} {name : String} {l : Location}
    (h : Says location (said fields name) l) :
    (fields.lookup name).map asLocation = some l.toDocument := by
  obtain ⟨document, hlookup, hlocation⟩ := h.lookup_eq
  rw [hlookup, Option.map_some, asLocation_of_location hlocation]

theorem MaySay.given_lookup {α : Type} {read : Document → Except WireError α}
    {toDocument : α → Document}
    (hread : ∀ document a, read document = .ok a ↔ document = toDocument a)
    (hnull : ∀ a, toDocument a ≠ .null) {fields : List (String × Document)} {name : String}
    {value : Option α} (h : MaySay (optional read) (said fields name) value) :
    given (fields.lookup name) = value.map toDocument := by
  have hnull' (a : α) : read .null ≠ .ok a := fun h => hnull a ((hread _ _).mp h).symm
  obtain ⟨hsaid, rfl⟩ | hsays := h
  · rw [lookup_eq_head?_said, hsaid]
    rfl
  · obtain ⟨document, hlookup, hvalue⟩ := hsays.lookup_eq
    rw [hlookup]
    cases value with
    | none =>
      obtain rfl := (optional_eq_ok_iff hnull').mp hvalue
      rfl
    | some a =>
      obtain rfl := (hread document a).mp ((optional_eq_ok_iff hnull').mp hvalue)
      unfold given
      split
      · rename_i hdocument
        exact absurd (Option.some.inj hdocument) (hnull a)
      · rfl

end Document

theorem Span.toDocument_of_ofDocument {document : Document} {span : Span}
    (h : ofDocument document = .ok span) : span.toDocument = document.asSpan := by
  obtain ⟨-, hstart, hstop, hurl, htext, hcontext⟩ :=
    spanParts_eq_ok_iff.mp (ofDocument_eq_ok_iff.mp h)
  have hstart : _ = some span.start.toDocument := hstart.map_asLocation
  have hstop : _ = some span.stop.toDocument := hstop.map_asLocation
  have hurl : _ = span.url.map fun url => Document.text url.text :=
    hurl.given_lookup (fun _ _ => url_eq_ok_iff) fun _ h => by contradiction
  have hcontext : _ = span.context.map Document.text :=
    hcontext.given_lookup (fun _ _ => string_eq_ok_iff) fun _ h => by contradiction
  obtain ⟨_, htext, hstring⟩ := htext.lookup_eq
  obtain rfl : _ = Document.text span.text := string_eq_ok_iff.mp hstring
  rw [Document.asSpan, toDocument, hstart, hstop, hurl, htext, hcontext]
  cases span.url <;> cases span.context <;> rfl

/-- Whether a document says each part of a span, and each count of its locations, at most once. -/
def Document.SaysOnce (document : Document) : Prop :=
  Span.layout.NamesOnce document ∧ ∀ name ∈ ["start", "end"],
    ∀ location ∈ said (Span.layout.fieldsOf document) name, Location.layout.NamesOnce location

theorem Document.Says.namesOnce {documents : List Document} {l : Location}
    (h : Says location documents l) :
    ∀ document ∈ documents, Location.layout.NamesOnce document := by
  obtain ⟨document, rfl, hlocation⟩ := h
  obtain ⟨_, hfound, _⟩ := Except.bind_eq_ok_iff.mp hlocation
  simpa using Layout.namesOnce_of_find hfound

theorem Span.saysOnce_of_ofDocument {document : Document} {span : Span}
    (h : ofDocument document = .ok span) : document.SaysOnce := by
  have hparts := ofDocument_eq_ok_iff.mp h
  obtain ⟨-, hstart, hstop, -⟩ := spanParts_eq_ok_iff.mp hparts
  obtain ⟨_, hfound, _⟩ := Except.bind_eq_ok_iff.mp hparts
  refine ⟨Layout.namesOnce_of_find hfound, ?_⟩
  simp only [List.forall_mem_cons, List.not_mem_nil, false_implies, implies_true, and_true]
  exact ⟨hstart.namesOnce, hstop.namesOnce⟩

/-- A span of a file comes back from its document; offsets are counts. The document of a span that
was read is the one it was read from, less what is no part of a span, and that one left no choice
what to read. -/
theorem wire_round_trip :
    (∀ (text : String) (url : Option Url) (start stop : Nat) (includeContext : Bool) (span : Span),
      stop < countBound →
      (LineIndex.ofString text).span url start stop includeContext = .ok span →
      Span.ofDocument span.toDocument = .ok span) ∧
    ∀ (document : Document) (span : Span), Span.ofDocument document = .ok span →
      span.toDocument = document.asSpan ∧ document.SaysOnce := by
  refine ⟨?_, fun document span h =>
    ⟨Span.toDocument_of_ofDocument h, Span.saysOnce_of_ofDocument h⟩⟩
  intro text url start stop includeContext span hstop hspan
  obtain ⟨hstart, hstop⟩ := LineIndex.isCounted_of_span hstop hspan
  exact Span.ofDocument_toDocument hstart hstop

/-- A span of two lines with its context, a record that says more than its span, and a list of the
same span. -/
theorem wire_round_trip_two_lines :
    let span := Span.image ['a'] ['😀', '\n'] ['b'] none true
    let start := Document.list [.integer 0, .integer 0, .integer 0]
    let stop := Document.record [("column", .integer 1), ("line", .integer 0),
      ("offset", .integer 1)]
    let record := Document.record [("note", .null), ("url", .null), ("text", .text "x"),
      ("start", start), ("end", stop), ("note", .null)]
    let list := Document.list [start, stop, .null, .text "x"]
    let letter := Span.image [] ['x'] [] none false
    (LineIndex.ofString "a😀\nb").span none 1 4 true = .ok span ∧
      Span.ofDocument span.toDocument = .ok span ∧
      (Span.ofDocument record = .ok letter ∧ letter.toDocument = record.asSpan) ∧
      Span.ofDocument list = .ok letter ∧ letter.toDocument = list.asSpan := by
  intro span start stop record list letter
  have hcut : "a😀\nb".toList = ['a'] ++ ['😀', '\n'] ++ ['b'] := by decide
  have hspan : (LineIndex.ofString "a😀\nb").span none 1 4 true = .ok span :=
    LineIndex.span_eq_image none true hcut
  have hrecord : Span.ofDocument record = .ok letter := by
    rw [Span.ofDocument_eq_ok_iff]
    decide
  have hlist : Span.ofDocument list = .ok letter := by
    rw [Span.ofDocument_eq_ok_iff]
    decide
  exact ⟨hspan, wire_round_trip.1 "a😀\nb" none 1 4 true span (by decide) hspan,
    ⟨hrecord, (wire_round_trip.2 record letter hrecord).1⟩, hlist,
    (wire_round_trip.2 list letter hlist).1⟩

end Stylesheet
