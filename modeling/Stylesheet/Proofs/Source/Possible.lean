import Stylesheet.Proofs.Source.Wire

/-!
# Possible spans

A span is possible if some file has it. The parts of a span do not tell its file, and a sound span
need not have one: on the first line of a file the column of a place is its offset, which soundness
does not ask for, and a line and a column whose sum wraps around are farther from the start of a
file than any offset. Nothing else is missing, and no possible span is turned away
(`isPossible_of_document_iff`).
-/

namespace Stylesheet

open Text

/-- Whether the span between the offsets of two locations, in some file, has these locations and the
text. -/
def Span.Parts.IsPossible (parts : Span.Parts) : Prop :=
  ∃ (source : String) (found : Span),
    (LineIndex.ofString source).span parts.url parts.start.offset parts.stop.offset false =
        .ok found ∧
      found.start = parts.start ∧ found.stop = parts.stop ∧ found.text = parts.text

def Span.IsPossible (span : Span) : Prop := span.parts.IsPossible

/-- On the first line of a file the column of a place is its offset. -/
theorem Location.column_behind {front : List Char} (hline : (behind front).line = 0) :
    (behind front).column = (behind front).offset := by
  induction front using List.reverseRecOn with
  | nil => rfl
  | append_singleton s c ih =>
    rw [behind_concat] at hline ⊢
    unfold next at hline ⊢
    split at hline
    · contradiction
    · rw [if_neg ‹_›]
      simp only
      rw [ih hline]

/-! ## A file for a location -/

namespace Location

theorem advance_replicate_blank (l : Location) (n : Nat) :
    l.advance (List.replicate n ' ') = ⟨l.offset + n, l.line, l.column + n⟩ := by
  induction n generalizing l with
  | zero => rfl
  | succ n ih =>
    have hnext : l.next ' ' = ⟨l.offset + 1, l.line, l.column + 1⟩ := rfl
    rw [List.replicate_succ, advance_cons, hnext, ih]
    simp only [mk.injEq, true_and]
    omega

theorem advance_replicate_newline (l : Location) (n : Nat) :
    l.advance (List.replicate n '\n') =
      ⟨l.offset + n, l.line + n, if n = 0 then l.column else 0⟩ := by
  induction n generalizing l with
  | zero => rfl
  | succ n ih =>
    have hnext : l.next '\n' = ⟨l.offset + 1, l.line + 1, 0⟩ := rfl
    rw [List.replicate_succ, advance_cons, hnext, ih]
    simp only [mk.injEq, ite_self, if_neg (Nat.succ_ne_zero n), and_true]
    omega

/-- A text to stand in front of a location. What neither the lines nor the columns take of its
offset is put on the first line. -/
def filler (l : Location) : List Char :=
  List.replicate (l.offset - (l.line + l.column)) ' ' ++ List.replicate l.line '\n' ++
    List.replicate l.column ' '

theorem behind_filler {l : Location} (hsum : l.line + l.column ≤ l.offset)
    (hfirst : l.line = 0 → l.column = l.offset) : behind l.filler = l := by
  obtain ⟨offset, line, column⟩ := l
  simp only at hsum hfirst
  have horigin : behind [] = origin := rfl
  rw [filler, ← List.nil_append (_ ++ _ ++ _), behind_append, horigin, advance_append,
    advance_append, advance_replicate_blank, advance_replicate_newline, advance_replicate_blank]
  simp only [origin, mk.injEq]
  split <;> omega

end Location

/-! ## Which spans are possible -/

namespace Span

/-- The locations and the text of a possible span are flawless. -/
theorem Parts.IsPossible.rangeFlaw?_eq_none {parts : Parts} (h : parts.IsPossible) :
    rangeFlaw? parts.start parts.stop parts.text.toList = none := by
  obtain ⟨source, found, -, hstart, hstop, htext⟩ := h
  rw [← hstart, ← hstop, ← htext]
  exact (Option.or_eq_none_iff.mp found.isSound).1

/-- The start of a possible span is not farther than its offset. -/
theorem Parts.IsPossible.line_add_column_le {parts : Parts} (h : parts.IsPossible) :
    parts.start.line + parts.start.column ≤ parts.start.offset := by
  obtain ⟨source, found, hfound, hstart, -, -⟩ := h
  obtain ⟨front, text, rest, -, -, rfl⟩ := LineIndex.exists_image_of_span hfound
  rw [← hstart]
  exact Location.line_add_column_le front

theorem Parts.IsPossible.column_eq {parts : Parts} (h : parts.IsPossible)
    (hline : parts.start.line = 0) : parts.start.column = parts.start.offset := by
  obtain ⟨source, found, hfound, hstart, -, -⟩ := h
  obtain ⟨front, text, rest, -, -, rfl⟩ := LineIndex.exists_image_of_span hfound
  rw [← hstart] at hline ⊢
  exact Location.column_behind hline

/-- A file of a filler and the text has a flawless span whose start it can have. -/
theorem Parts.isPossible_of_flawless {parts : Parts}
    (hsum : parts.start.line + parts.start.column ≤ parts.start.offset)
    (hfirst : parts.start.line = 0 → parts.start.column = parts.start.offset)
    (hstop : parts.stop = parts.start.advance parts.text.toList) : parts.IsPossible := by
  let front := parts.start.filler
  have hbehind : Location.behind front = parts.start := Location.behind_filler hsum hfirst
  have hbehind' : Location.behind (front ++ parts.text.toList) = parts.stop := by
    rw [Location.behind_append, hbehind, hstop]
  have hsource : (String.ofList (front ++ parts.text.toList)).toList =
      front ++ parts.text.toList ++ [] := by
    rw [String.toList_ofList, List.append_nil]
  have hfound := LineIndex.span_eq_image parts.url false hsource
  rw [show unitLength front = _ from congrArg Location.offset hbehind,
    show unitLength (front ++ parts.text.toList) = _ from congrArg Location.offset hbehind']
    at hfound
  exact ⟨_, _, hfound, hbehind, hbehind', String.ofList_toList⟩

end Span

/-- What is read from a document is possible unless it starts on the first line at a column that is
not its offset, or at a line and a column whose sum wraps around. What is possible is read, if the
context has it. -/
theorem isPossible_of_document_iff (document : Document) :
    (∀ span, Span.ofDocument document = .ok span →
      (span.IsPossible ↔ span.start.line + span.start.column < countBound ∧
        (span.start.line = 0 → span.start.column = span.start.offset))) ∧
    ∀ parts, document.spanParts = .ok parts → parts.IsPossible →
      Span.contextFlaw? parts.start parts.text.toList parts.context = none →
      ∃ span, Span.ofDocument document = .ok span ∧ span.parts = parts := by
  constructor
  · intro span hspan
    obtain ⟨hstart, hstop⟩ := isCounted_of_spanParts (Span.ofDocument_eq_ok_iff.mp hspan)
    constructor
    · intro hpossible
      exact ⟨Nat.lt_of_le_of_lt hpossible.line_add_column_le hstart.offset_lt,
        hpossible.column_eq⟩
    · rintro ⟨hsum, hfirst⟩
      have hflawless := (Option.or_eq_none_iff.mp span.isSound).1
      obtain ⟨hle, hend⟩ := (Span.rangeFlaw?_eq_none_iff hsum hstop).mp hflawless
      exact Span.Parts.isPossible_of_flawless hle hfirst hend
  · intro parts hparts hpossible hcontext
    let span : Span := ⟨parts.start, parts.stop, parts.url, parts.text, parts.context,
      Option.or_eq_none_iff.mpr ⟨hpossible.rangeFlaw?_eq_none, hcontext⟩⟩
    exact ⟨span, Span.ofDocument_eq_ok_iff.mpr hparts, rfl⟩

/-- A place on a second line, and a file that has it. -/
theorem isPossible_of_document_second_line :
    let place := Document.list [.integer 3, .integer 1, .integer 1]
    let document := Document.list [place, place, .null, .text ""]
    let span : Span := ⟨⟨3, 1, 1⟩, ⟨3, 1, 1⟩, none, "", none, rfl⟩
    document.spanParts = .ok span.parts ∧ Span.ofDocument document = .ok span ∧ span.IsPossible ∧
      ∃ found, Span.ofDocument document = .ok found ∧ found.parts = span.parts := by
  intro place document span
  have hparts : document.spanParts = .ok span.parts := by decide
  have hread : Span.ofDocument document = .ok span := Span.ofDocument_eq_ok_iff.mpr hparts
  have hpossible : span.IsPossible :=
    ((isPossible_of_document_iff document).1 span hread).mpr (by decide)
  exact ⟨hparts, hread, hpossible,
    (isPossible_of_document_iff document).2 span.parts hparts hpossible rfl⟩

/-- A place behind one code unit of the first line of a file and yet at its first column. -/
theorem impossible_span_of_document :
    ∃ span, Span.ofDocument (.record [("start", Location.toDocument ⟨1, 0, 0⟩),
      ("end", Location.toDocument ⟨1, 0, 0⟩), ("text", .text "")]) = .ok span ∧
        ¬ span.IsPossible := by
  let span : Span := ⟨⟨1, 0, 0⟩, ⟨1, 0, 0⟩, none, "", none, rfl⟩
  have hread : Span.ofDocument span.toDocument = .ok span :=
    Span.ofDocument_toDocument ⟨by decide, by decide, by decide⟩ ⟨by decide, by decide, by decide⟩
  refine ⟨span, hread, ?_⟩
  intro hpossible
  exact absurd (hpossible.column_eq rfl) (by decide)

/-- A line that is as far as counts reach, which one more column wraps around. -/
example :
    let place : Location := ⟨0, 2 ^ 64 - 1, 1⟩
    Span.of place place none "" none = .ok ⟨place, place, none, "", none, by decide⟩ := by
  decide

end Stylesheet
