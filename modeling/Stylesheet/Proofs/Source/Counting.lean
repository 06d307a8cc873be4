import Stylesheet.Proofs.Source.CodeUnits

/-!
# Locations by counting

A line index searches for the line of an offset. Counting all code units in front of the offset
gives the same location (`locate_by_counting`), also inside a pair of surrogates, at a line feed and
at the end of the file.
-/

namespace Stylesheet

open Text

/-- The location of a place among code units: the line feeds in front of it, and the units behind
the last of these. -/
def Location.counted (us : List Nat) (n : Nat) : Location :=
  ⟨n, (us.take n).count 0x0A, ((us.take n).rtakeWhile (· != 0x0A)).length⟩

section

variable {source : String} {front rest : List Char} {k : Nat}

/-- Counting up to a place that is less than a character behind a front counts what is on the last
line of the front, and the units behind it. -/
theorem Location.counted_units (hk : k ≤ unitLength rest)
    (hnext : ∀ c tail, rest = c :: tail → k < unitSize c) :
    counted (units (front ++ rest)) (unitLength front + k) =
      ⟨unitLength front + k, front.count '\n', unitLength (openLine front) + k⟩ := by
  have hplain : ∀ u ∈ (units rest).take k, (u != 0x0A) = true := by
    cases rest with
    | nil => simp
    | cons c tail =>
      have hlt := hnext c tail rfl
      rw [units_cons, List.take_append_of_le_length (by rw [length_unitsOf]; omega)]
      intro u hu
      rw [bne_iff_ne]
      rintro rfl
      exact newline_not_mem_take_unitsOf hlt hu
  have hcount : ((units rest).take k).count 0x0A = 0 := by
    rw [List.count_eq_zero]
    intro hmem
    simpa using hplain _ hmem
  have hlength : ((units rest).take k).length = k := by
    rw [List.length_take, length_units, Nat.min_eq_left hk]
  rw [counted, take_units, List.count_append, count_units, hcount, Nat.add_zero,
    rtakeWhile_append_of_forall _ hplain, rtakeWhile_units, List.length_append, length_units,
    hlength]

namespace LineIndex

/-- A line index finds such a place on the last line of the front, too. -/
theorem lineOfUnit_eq_of_lt (h : source.toList = front ++ rest)
    (hnext : ∀ c tail, rest = c :: tail → k < unitSize c) :
    (ofString source).lineOfUnit (Text.unitLength front + k) =
      (front.count '\n', LineStart.last front rest) := by
  apply lineOfUnit_eq_of_le h (Nat.le_add_right ..)
  intro c tail hrest
  have := hnext c tail hrest
  omega

theorem locate_eq_of_lt (h : source.toList = front ++ rest) (hk : k ≤ Text.unitLength rest)
    (hnext : ∀ c tail, rest = c :: tail → k < unitSize c) :
    (ofString source).locate (Text.unitLength front + k) =
      .ok ⟨Text.unitLength front + k, front.count '\n', Text.unitLength (openLine front) + k⟩ := by
  have hrange : ¬(ofString source).length < Text.unitLength front + k := by
    simp only [length, ofString, h, unitLength_append]
    omega
  have hcolumn : Text.unitLength front + k - Text.unitLength (closedLines front) =
      Text.unitLength (openLine front) + k := by
    have := unitLength_closedLines_add front
    omega
  rw [locate, if_neg hrange, lineOfUnit_eq_of_lt h hnext]
  simp only [LineStart.last, hcolumn]

/-- An offset within a text has the location found by counting. -/
theorem locate_eq_counted {offset : Nat} (h : offset ≤ (units source.toList).length) :
    (ofString source).locate offset = .ok (Location.counted (units source.toList) offset) := by
  rw [length_units] at h
  obtain ⟨front, rest, k, hsplit, rfl, hk, hnext⟩ := exists_place h
  rw [locate_eq_of_lt hsplit hk hnext, hsplit, Location.counted_units hk hnext]

theorem locate_of_beyond {offset : Nat} (h : (units source.toList).length < offset) :
    (ofString source).locate offset =
      .error (.outOfRange offset (units source.toList).length) := by
  have hlength : (ofString source).length = (units source.toList).length :=
    (length_units source.toList).symm
  rw [locate, hlength, if_pos h]

end LineIndex

end

/-- A location is that of its offset by counting, and an offset past the end has none. -/
theorem locate_by_counting (text : String) (offset : Nat) :
    let us := units text.toList
    let answer : Except SourceError Location :=
      if us.length < offset then .error (.outOfRange offset us.length)
      else .ok (Location.counted us offset)
    (LineIndex.ofString text).locate offset = answer ∧ locate text offset = answer := by
  intro us answer
  have hlocate : (LineIndex.ofString text).locate offset = answer := by
    by_cases hbeyond : us.length < offset
    · simp only [answer, if_pos hbeyond]
      exact LineIndex.locate_of_beyond hbeyond
    · simp only [answer, if_neg hbeyond]
      exact LineIndex.locate_eq_counted (Nat.le_of_not_lt hbeyond)
  exact ⟨hlocate, hlocate⟩

example : Location.counted (units ['\n', '😀', '\r']) 2 = ⟨2, 1, 1⟩ := by decide +kernel

end Stylesheet
