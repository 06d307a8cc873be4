import Stylesheet.Proofs.Source.LineStarts

/-!
# Images of cuts

A source text cut into a front, a text and a rest has one span for the text, its image. A line
index finds each part of the image by a search or a walk of its own; `span_eq_image` says that all
of them agree, so that no stretch between two characters is ever refused a span.
-/

namespace Stylesheet

open Text

/-! ## Searching among line starts -/

/-- A search over entries that satisfy the condition first and never again stops between them. -/
theorem partitionPoint_append {α : Type} {p : α → Bool} {before after : List α}
    (hbefore : ∀ a ∈ before, p a = true) (hafter : ∀ a ∈ after, p a = false) :
    partitionPoint p (before ++ after).toArray = before.length := by
  have hiff : ∀ i (h : i < (before ++ after).toArray.size),
      p (before ++ after).toArray[i] = true ↔ i < before.length := by
    intro i h
    rw [List.getElem_toArray, List.getElem_append]
    split
    · rename_i hi
      exact ⟨fun _ => hi, fun _ => hbefore _ (List.getElem_mem _)⟩
    · rename_i hi
      rw [hafter _ (List.getElem_mem _)]
      simp [hi]
  have hsplit : ∀ i j (hi : i < (before ++ after).toArray.size)
      (hj : j < (before ++ after).toArray.size), i ≤ j →
      p (before ++ after).toArray[j] = true → p (before ++ after).toArray[i] = true := by
    intro i j hi hj hij hp
    rw [hiff] at hp ⊢
    omega
  obtain ⟨hle, hspec⟩ := partitionPoint_spec hsplit
  have hsize : (before ++ after).toArray.size = before.length + after.length := by simp
  apply Nat.le_antisymm
  · by_contra hlt
    have h := (hspec before.length (by omega)).mpr (by omega)
    rw [hiff] at h
    omega
  · by_contra hlt
    have h := (hiff (partitionPoint p (before ++ after).toArray) (by omega)).mpr (by omega)
    rw [hspec] at h
    omega

namespace LineIndex

variable {source : String} {front text rest : List Char}

theorem starts_ofString (h : source.toList = front ++ rest) :
    (ofString source).starts = ((LineStart.all front).map (LineStart.extend rest) ++
      LineStart.following (Text.unitLength front) (Text.byteLength front) rest).toArray := by
  rw [ofString, h, LineStart.all_append]

/-- A condition that holds for the line starts in a front and not behind it finds the line on which
the front ends. -/
theorem lastLine_eq_of_mem {p : LineStart → Bool} (h : source.toList = front ++ rest)
    (hfront : ∀ start ∈ (LineStart.all front).map (LineStart.extend rest), p start = true)
    (hrest : ∀ start ∈ LineStart.following (Text.unitLength front) (Text.byteLength front) rest,
      p start = false) :
    (ofString source).lastLine p = (front.count '\n', LineStart.last front rest) := by
  have hpoint : partitionPoint p ((LineStart.all front).map (LineStart.extend rest) ++
      LineStart.following (Text.unitLength front) (Text.byteLength front) rest).toArray =
        ((LineStart.all front).map (LineStart.extend rest)).length :=
    partitionPoint_append hfront hrest
  have hlast := LineStart.getLast?_all front rest
  rw [List.getLast?_eq_getElem?, List.length_map, LineStart.length_all, Nat.add_sub_cancel] at hlast
  have hlength : front.count '\n' < ((LineStart.all front).map (LineStart.extend rest)).length := by
    rw [List.length_map, LineStart.length_all]
    omega
  rw [lastLine, starts_ofString h, hpoint, List.length_map, LineStart.length_all,
    Nat.add_sub_cancel, List.getElem?_toArray, List.getElem?_append_left hlength, hlast]
  rfl

/-- A condition that holds up to the end of a front and not behind it finds the line on which the
front ends. -/
theorem lastLine_eq {p : LineStart → Bool} (h : source.toList = front ++ rest)
    (hfront : ∀ start : LineStart, start.unit ≤ Text.unitLength front →
      start.byte ≤ Text.byteLength front → p start = true)
    (hrest : ∀ start : LineStart, Text.unitLength front < start.unit →
      Text.byteLength front < start.byte → p start = false) :
    (ofString source).lastLine p = (front.count '\n', LineStart.last front rest) := by
  apply lastLine_eq_of_mem h
  · intro start hs
    exact hfront start (LineStart.le_of_mem_all hs).1 (LineStart.le_of_mem_all hs).2
  · intro start hs
    exact hrest start (LineStart.lt_of_mem_following hs).1 (LineStart.lt_of_mem_following hs).2

theorem lineOfUnit_eq (h : source.toList = front ++ rest) :
    (ofString source).lineOfUnit (Text.unitLength front) =
      (front.count '\n', LineStart.last front rest) := by
  apply lastLine_eq h
  · intro start hunit _
    exact decide_eq_true hunit
  · intro start hunit _
    exact decide_eq_false (Nat.not_le.mpr hunit)

theorem lineOfByte_eq (h : source.toList = front ++ rest) :
    (ofString source).lineOfByte (Text.byteLength front) =
      (front.count '\n', LineStart.last front rest) := by
  apply lastLine_eq h
  · intro start _ hbyte
    exact decide_eq_true hbyte
  · intro start _ hbyte
    exact decide_eq_false (Nat.not_le.mpr hbyte)

/-! ## Offsets and locations -/

theorem locate_eq (h : source.toList = front ++ rest) :
    (ofString source).locate (Text.unitLength front) = .ok (.behind front) := by
  have hle : ¬(ofString source).length < Text.unitLength front := by
    simp only [length, ofString, h, unitLength_append]
    omega
  have hcolumn : Text.unitLength front - Text.unitLength (closedLines front) =
      Text.unitLength (openLine front) := by
    have := unitLength_closedLines_add front
    omega
  rw [locate, if_neg hle, lineOfUnit_eq h]
  simp only [LineStart.last, hcolumn]
  rfl

theorem seek_eq (h : source.toList = front ++ rest) :
    (ofString source).seek (Text.unitLength front) = .ok (Text.byteLength front, rest) := by
  have hcut : cut? unitSize (Text.unitLength (openLine front)) (openLine front ++ rest) =
      some (openLine front, rest) :=
    cut?_append unitSize_pos (openLine front) rest
  rw [seek, locate_eq h, lineOfUnit_eq h]
  simp only [bind, Except.bind, Location.behind, LineStart.last, hcut]
  rw [byteLength_closedLines_add]
  rfl

/-- The end of a front is at the same place in bytes as in code units. -/
theorem unitOffset_eq (h : source.toList = front ++ rest) :
    (ofString source).unitOffset (Text.byteLength front) = .ok (Text.unitLength front) := by
  have hle : ¬(ofString source).byteLength < Text.byteLength front := by
    simp only [ofString, h, byteLength_append]
    omega
  have hoffset : Text.byteLength front - Text.byteLength (closedLines front) =
      Text.byteLength (openLine front) := by
    have := byteLength_closedLines_add front
    omega
  have hcut : cut? Char.utf8Size (Text.byteLength (openLine front)) (openLine front ++ rest) =
      some (openLine front, rest) :=
    cut?_append Char.utf8Size_pos (openLine front) rest
  rw [unitOffset, if_neg hle, lineOfByte_eq h]
  simp only [LineStart.last, hoffset, hcut]
  rw [unitLength_closedLines_add]

theorem lineEnd_eq (h : source.toList = front ++ rest) :
    (ofString source).lineEnd (front.count '\n') =
      Text.byteLength front + Text.byteLength (firstLine rest) := by
  have hlength : ((LineStart.all front).map (LineStart.extend rest)).length =
      front.count '\n' + 1 := by
    rw [List.length_map, LineStart.length_all]
  have hbytes : (ofString source).byteLength = Text.byteLength front + Text.byteLength rest := by
    simp only [ofString, h, byteLength_append]
  rw [lineEnd, starts_ofString h, List.getElem?_toArray, List.getElem?_append_right (by omega),
    hlength, Nat.sub_self, ← List.head?_eq_getElem?, hbytes,
    ← LineStart.head?_following (Text.unitLength front)]
  cases (LineStart.following (Text.unitLength front) (Text.byteLength front) rest).head? <;> rfl

theorem front_eq (text rest : List Char) :
    LineIndex.front (Text.byteLength text) (text ++ rest) = String.ofList text := by
  have hcut : cut? Char.utf8Size (Text.byteLength text) (text ++ rest) = some (text, rest) :=
    cut?_append Char.utf8Size_pos text rest
  rw [LineIndex.front, hcut]
  rfl

end LineIndex

/-! ## Images -/

namespace Span

/-- The lines that a text between a front and a rest touches. -/
def linesAround (front text rest : List Char) : List Char :=
  openLine front ++ text ++ firstLine rest

theorem closedLines_append_linesAround (front text rest : List Char) :
    closedLines front ++ linesAround front text rest = front ++ text ++ firstLine rest := by
  rw [linesAround, ← List.append_assoc, ← List.append_assoc, closedLines_append_openLine]

theorem rangeFlaw?_behind (front text : List Char) :
    rangeFlaw? (.behind front) (.behind (front ++ text)) text = none := by
  have hsum := Location.line_add_column_le front
  have hstop : (Location.behind (front ++ text)).offset =
      (Location.behind front).offset + unitLength text := by
    simp [Location.behind]
  have hkept := wrap_le ((Location.behind front).line + (Location.behind front).column)
  rw [rangeFlaw?, if_neg (by omega), if_neg (by omega), if_neg (by omega), if_neg]
  rw [Location.behind_append]
  simp

theorem isAligned_linesAround (front text rest : List Char) :
    isAligned (Location.behind front).column text (linesAround front text rest) = true := by
  have hcut : cut? unitSize (unitLength (openLine front)) (linesAround front text rest) =
      some (openLine front, text ++ firstLine rest) := by
    rw [linesAround, List.append_assoc]
    exact cut?_append unitSize_pos (openLine front) (text ++ firstLine rest)
  rw [isAligned, standsAt, Location.behind, hcut]
  simp [not_mem_openLine front]

theorem flaw?_image (front text rest : List Char) (includeContext : Bool) :
    flaw? (.behind front) (.behind (front ++ text)) (String.ofList text)
      (if includeContext then some (String.ofList (linesAround front text rest)) else none) =
        none := by
  rw [flaw?, String.toList_ofList, rangeFlaw?_behind]
  cases includeContext with
  | false => rfl
  | true => simp [contextFlaw?, isAligned_linesAround]

/-- The span of a text between a front and a rest. -/
def image (front text rest : List Char) (url : Option Url) (includeContext : Bool) : Span where
  start := .behind front
  stop := .behind (front ++ text)
  url := url
  text := String.ofList text
  context := if includeContext then some (String.ofList (linesAround front text rest)) else none
  isSound := flaw?_image front text rest includeContext

end Span

namespace LineIndex

variable {source : String} {front text rest : List Char}

theorem contextOf_eq (h : source.toList = front ++ text ++ rest) :
    (ofString source).contextOf (.behind front) (.behind (front ++ text)) =
      String.ofList (Span.linesAround front text rest) := by
  have hfront : source.toList = front ++ (text ++ rest) := by rw [h, List.append_assoc]
  have hrest : firstLine rest ++ rest.dropWhile (· != '\n') = rest :=
    List.takeWhile_append_dropWhile
  have hlength : Text.byteLength (front ++ text) + Text.byteLength (firstLine rest) -
      Text.byteLength (closedLines front) = Text.byteLength (Span.linesAround front text rest) := by
    have hparts :=
      congrArg Text.byteLength (Span.closedLines_append_linesAround front text rest)
    rw [byteLength_append, byteLength_append] at hparts
    omega
  have hsplit : openLine front ++ (text ++ rest) =
      Span.linesAround front text rest ++ rest.dropWhile (· != '\n') := by
    conv_lhs => rw [← hrest]
    simp [Span.linesAround]
  simp only [contextOf, Location.behind]
  rw [lineOfUnit_eq hfront, lineEnd_eq h]
  simp only [LineStart.last]
  rw [hlength, hsplit, front_eq]

/-- The span between the offsets of two cuts is the image of what stands between them. -/
theorem span_eq_image (url : Option Url) (includeContext : Bool)
    (h : source.toList = front ++ text ++ rest) :
    (ofString source).span url (Text.unitLength front) (Text.unitLength (front ++ text))
      includeContext = .ok (Span.image front text rest url includeContext) := by
  have hfront : source.toList = front ++ (text ++ rest) := by rw [h, List.append_assoc]
  have hrange : ¬(Text.unitLength (front ++ text) < Text.unitLength front ∨
      (ofString source).length < Text.unitLength (front ++ text)) := by
    simp only [length, ofString, h, unitLength_append]
    omega
  have hbytes : Text.byteLength (front ++ text) - Text.byteLength front = Text.byteLength text := by
    rw [byteLength_append]
    omega
  rw [span, if_neg hrange, locate_eq hfront, locate_eq h, seek_eq hfront, seek_eq h]
  simp only [bind, Except.bind, hbytes, front_eq, contextOf_eq h]
  exact Span.of_eq_ok_iff.mpr ⟨rfl, rfl, rfl, rfl, rfl⟩

end LineIndex

end Stylesheet
