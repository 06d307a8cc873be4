import Stylesheet.Proofs.Source.Conversion

/-!
# Stretches of code units

Two offsets of a file have a span exactly if they are in order, within the file and split no pair of
surrogates. The span then holds the code units between them and, if asked for, those of all lines
that they touch (`span_decides`).
-/

namespace Stylesheet

open Text

/-! ## Stretches and lines among code units -/

/-- Why a stretch of code units has no span: its ends are out of order or past the end, or else the
first of them that is not between two characters. -/
def stretchFault? (us : List Nat) (start stop : Nat) : Option SourceError :=
  if stop < start ∨ us.length < stop then some (.invalidRange start stop us.length)
  else if splitsPair us start then some (.splitsCodePoint start)
  else if splitsPair us stop then some (.splitsCodePoint stop)
  else none

/-- Where the line of a place starts: behind the last line feed in front of it. -/
def lineStart (us : List Nat) (n : Nat) : Nat := ((us.take n).rdropWhile (· != 0x0A)).length

/-- Where the line of a place stops: in front of the next line feed, or at the end. -/
def lineStop (us : List Nat) (n : Nat) : Nat := n + ((us.drop n).takeWhile (· != 0x0A)).length

/-- A span holds what a text has between two offsets. -/
structure Span.IsStretch (text : String) (url : Option Url) (start stop : Nat)
    (includeContext : Bool) (span : Span) : Prop where
  start_eq : locate text start = .ok span.start
  stop_eq : locate text stop = .ok span.stop
  url_eq : span.url = url
  text_units : units span.text.toList = (units text.toList).extract start stop
  context_units : (span.context.map fun context => units context.toList) =
    if includeContext then
      some ((units text.toList).extract (lineStart (units text.toList) start)
        (lineStop (units text.toList) stop))
    else none

theorem stretchFault?_eq_none_iff {us : List Nat} {start stop : Nat} :
    stretchFault? us start stop = none ↔ start ≤ stop ∧ stop ≤ us.length ∧
      splitsPair us start = false ∧ splitsPair us stop = false := by
  unfold stretchFault?
  split_ifs with hrange hstart hstop
  · simp only [false_iff]
    omega
  · simp [hstart]
  · simp [hstop]
  · rw [not_or] at hrange
    simp only [true_iff]
    exact ⟨Nat.le_of_not_lt hrange.1, Nat.le_of_not_lt hrange.2, Bool.of_not_eq_true hstart,
      Bool.of_not_eq_true hstop⟩

namespace Text

variable (front text rest : List Char)

theorem extract_units :
    (units (front ++ text ++ rest)).extract (unitLength front) (unitLength (front ++ text)) =
      units text := by
  have hlength : unitLength (front ++ text) - unitLength front = (units text).length := by
    rw [unitLength_append, length_units]
    omega
  rw [List.append_assoc, List.extract_eq_take_drop, drop_units_front, hlength, units_append,
    List.take_left]

theorem lineStart_units :
    lineStart (units (front ++ rest)) (unitLength front) = unitLength (closedLines front) := by
  have hparts : ((units front).rdropWhile (· != 0x0A)).length +
      ((units front).rtakeWhile (· != 0x0A)).length = (units front).length := by
    rw [← List.length_append, List.rdropWhile_append_rtakeWhile]
  rw [rtakeWhile_units, length_units, length_units, ← unitLength_closedLines_add front] at hparts
  rw [lineStart, take_units_front]
  omega

theorem lineStop_units :
    lineStop (units (front ++ rest)) (unitLength front) =
      unitLength front + unitLength (firstLine rest) := by
  rw [lineStop, drop_units_front, takeWhile_units, length_units]

/-- The lines around a text stand between the start of the first and the stop of the last one. -/
theorem extract_units_linesAround :
    (units (front ++ text ++ rest)).extract
        (lineStart (units (front ++ text ++ rest)) (unitLength front))
        (lineStop (units (front ++ text ++ rest)) (unitLength (front ++ text))) =
      units (Span.linesAround front text rest) := by
  have hstart := lineStart_units front (text ++ rest)
  rw [← List.append_assoc] at hstart
  have hlines := Span.closedLines_append_linesAround front text rest
  have hsplit : front ++ text ++ rest = closedLines front ++ Span.linesAround front text rest ++
      rest.dropWhile (· != '\n') := by
    rw [hlines, List.append_assoc (front ++ text), firstLine, List.takeWhile_append_dropWhile]
  rw [hstart, lineStop_units, ← unitLength_append, ← hlines]
  conv_lhs => rw [hsplit]
  exact extract_units ..

end Text

/-! ## Spans of stretches -/

namespace LineIndex

variable {source : String} {start stop : Nat}

theorem isStretch_image {front text rest : List Char} (h : source.toList = front ++ text ++ rest)
    (url : Option Url) (includeContext : Bool) :
    (Span.image front text rest url includeContext).IsStretch source url (Text.unitLength front)
      (Text.unitLength (front ++ text)) includeContext where
  start_eq := locate_eq (by rw [h, List.append_assoc])
  stop_eq := locate_eq h
  url_eq := rfl
  text_units := by
    rw [h, extract_units, Span.image, String.toList_ofList]
  context_units := by
    rw [h, extract_units_linesAround, Span.image]
    cases includeContext <;> simp

/-- A stretch without a fault is what stands between two cuts. -/
theorem exists_cut_of_stretch (h : stretchFault? (units source.toList) start stop = none) :
    ∃ front text rest, source.toList = front ++ text ++ rest ∧
      Text.unitLength front = start ∧ Text.unitLength (front ++ text) = stop := by
  obtain ⟨hle, hlength, hstart, hstop⟩ := stretchFault?_eq_none_iff.mp h
  obtain ⟨front, rest, hsplit, rfl⟩ := exists_front_iff.mpr ⟨Nat.le_trans hle hlength, hstart⟩
  obtain ⟨front', rest', hsplit', rfl⟩ := exists_front_iff.mpr ⟨hlength, hstop⟩
  obtain ⟨text, rfl⟩ := exists_append_of_unitLength_le (hsplit.symm.trans hsplit') hle
  exact ⟨front, text, rest', hsplit', rfl, rfl⟩

theorem exists_span_of_stretch (url : Option Url) (includeContext : Bool)
    (h : stretchFault? (units source.toList) start stop = none) :
    ∃ span, (ofString source).span url start stop includeContext = .ok span ∧
      span.IsStretch source url start stop includeContext := by
  obtain ⟨front, text, rest, hsource, rfl, rfl⟩ := exists_cut_of_stretch h
  exact ⟨_, span_eq_image url includeContext hsource, isStretch_image hsource url includeContext⟩

/-- The ends are looked up one after the other, so the first one that fails is reported. -/
theorem span_of_stretchFault (url : Option Url) (includeContext : Bool) {fault : SourceError}
    (h : stretchFault? (units source.toList) start stop = some fault) :
    (ofString source).span url start stop includeContext = .error fault := by
  have hunits : (ofString source).length = (units source.toList).length :=
    (length_units source.toList).symm
  rw [stretchFault?] at h
  by_cases hrange : stop < start ∨ (units source.toList).length < stop
  · rw [if_pos hrange] at h
    obtain rfl := Option.some.inj h
    rw [span, hunits, if_pos hrange]
  · rw [if_neg hrange] at h
    have hle : start ≤ (units source.toList).length := by omega
    have hle' : stop ≤ (units source.toList).length := by omega
    rw [span, hunits, if_neg hrange, locate_eq_counted hle, locate_eq_counted hle']
    split_ifs at h with hstart hstop
    · obtain rfl := Option.some.inj h
      rw [seek_of_splitsPair hle hstart]
      rfl
    · obtain rfl := Option.some.inj h
      obtain ⟨front, rest, hsplit, rfl⟩ :=
        exists_front_iff.mpr ⟨hle, Bool.of_not_eq_true hstart⟩
      rw [seek_eq hsplit, seek_of_splitsPair hle' hstop]
      rfl

/-- A span between two offsets is the image of what stands between two cuts. -/
theorem exists_image_of_span {url : Option Url} {includeContext : Bool} {span : Span}
    (h : (ofString source).span url start stop includeContext = .ok span) :
    ∃ front text rest, source.toList = front ++ text ++ rest ∧
      Text.unitLength (front ++ text) = stop ∧
      span = Span.image front text rest url includeContext := by
  cases hfault : stretchFault? (units source.toList) start stop with
  | none =>
    obtain ⟨front, text, rest, hsource, rfl, rfl⟩ := exists_cut_of_stretch hfault
    rw [span_eq_image url includeContext hsource] at h
    exact ⟨front, text, rest, hsource, rfl, (Except.ok.inj h).symm⟩
  | some fault =>
    rw [span_of_stretchFault url includeContext hfault] at h
    contradiction

end LineIndex

/-- Two offsets of a file have a span exactly if the stretch between them is one of whole
characters, and the span is that stretch. -/
theorem span_decides (text : String) (url : Option Url) (start stop : Nat)
    (includeContext : Bool) :
    let us := units text.toList
    let result := (LineIndex.ofString text).span url start stop includeContext
    ((∃ span, result = .ok span) ↔ start ≤ stop ∧ stop ≤ us.length ∧
        splitsPair us start = false ∧ splitsPair us stop = false) ∧
      (∀ fault, result = .error fault ↔ stretchFault? us start stop = some fault) ∧
      ∀ span, result = .ok span → span.IsStretch text url start stop includeContext := by
  intro us result
  rw [← stretchFault?_eq_none_iff]
  cases hfault : stretchFault? us start stop with
  | none =>
    obtain ⟨span, hspan, hstretch⟩ :=
      LineIndex.exists_span_of_stretch url includeContext hfault
    simp only [result, hspan]
    refine ⟨by simp, by simp, ?_⟩
    intro found hfound
    rwa [← Except.ok.inj hfound]
  | some fault =>
    have herror : result = .error fault :=
      LineIndex.span_of_stretchFault url includeContext hfault
    rw [herror]
    simp

example : stretchFault? (units ['a', '😀', '\n']) 1 2 = some (.splitsCodePoint 2) := by
  decide +kernel

end Stylesheet
