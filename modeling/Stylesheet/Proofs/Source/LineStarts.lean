import Mathlib.Data.List.DropRight
import Stylesheet.Source.LineIndex

/-!
# Line starts

A place in a file is given by the text in front of it. Counting in that text gives the location of
the place, and the search of a line index finds the line on which that text ends.
-/

namespace Stylesheet

open Text

/-! ## The lines of a front -/

namespace Text

/-- The lines of a text that a line feed ends. -/
def closedLines (s : List Char) : List Char := s.rdropWhile (· != '\n')

/-- What stands behind the last line feed of a text. -/
def openLine (s : List Char) : List Char := s.rtakeWhile (· != '\n')

/-- The first line of a text, without its line feed. -/
def firstLine (s : List Char) : List Char := s.takeWhile (· != '\n')

theorem closedLines_append_openLine (s : List Char) : closedLines s ++ openLine s = s :=
  List.rdropWhile_append_rtakeWhile

theorem closedLines_concat (s : List Char) (c : Char) :
    closedLines (s ++ [c]) = if c = '\n' then s ++ [c] else closedLines s := by
  rw [closedLines, List.rdropWhile_concat]
  by_cases h : c = '\n' <;> simp [h, closedLines]

theorem openLine_concat (s : List Char) (c : Char) :
    openLine (s ++ [c]) = if c = '\n' then [] else openLine s ++ [c] := by
  rw [openLine, List.rtakeWhile_concat]
  by_cases h : c = '\n' <;> simp [h, openLine]

theorem not_mem_openLine (s : List Char) : '\n' ∉ openLine s := by
  intro h
  simpa using List.mem_rtakeWhile_imp h

theorem unitLength_closedLines_add (s : List Char) :
    unitLength (closedLines s) + unitLength (openLine s) = unitLength s := by
  rw [← unitLength_append, closedLines_append_openLine]

theorem byteLength_closedLines_add (s : List Char) :
    byteLength (closedLines s) + byteLength (openLine s) = byteLength s := by
  rw [← byteLength_append, closedLines_append_openLine]

theorem utf8Size_newline : ('\n' : Char).utf8Size = 1 := rfl

theorem unitSize_newline : unitSize '\n' = 1 := rfl

end Text

/-! ## Locations by counting -/

namespace Location

/-- The location behind a text that starts a file, by counting. -/
def behind (front : List Char) : Location :=
  ⟨unitLength front, front.count '\n', unitLength (openLine front)⟩

theorem behind_concat (s : List Char) (c : Char) : behind (s ++ [c]) = (behind s).next c := by
  unfold behind next
  rw [openLine_concat]
  by_cases h : c = '\n'
  · simp [h, unitSize_newline]
  · simp [h]

theorem behind_append (s t : List Char) : behind (s ++ t) = (behind s).advance t := by
  induction t generalizing s with
  | nil => simp
  | cons c t ih =>
    rw [← List.singleton_append, ← List.append_assoc, ih, behind_concat]
    rfl

/-- Every line feed in front of a location takes a unit, and so does every column. -/
theorem line_add_column_le (front : List Char) :
    (behind front).line + (behind front).column ≤ (behind front).offset := by
  induction front using List.reverseRecOn with
  | nil => simp [behind, openLine]
  | append_singleton s c ih =>
    rw [behind_concat]
    unfold next
    split <;> simp only <;> omega

end Location

/-! ## The starts of the lines -/

namespace LineStart

/-- The same line start in a file that goes on. -/
def extend (rest : List Char) (start : LineStart) : LineStart :=
  { start with rest := start.rest ++ rest }

/-- The start of the line on which a front ends. -/
def last (front rest : List Char) : LineStart :=
  ⟨unitLength (closedLines front), byteLength (closedLines front), openLine front ++ rest⟩

theorem following_append (unit byte : Nat) (s t : List Char) :
    following unit byte (s ++ t) = (following unit byte s).map (extend t) ++
      following (unit + unitLength s) (byte + byteLength s) t := by
  induction s generalizing unit byte with
  | nil => simp [following]
  | cons c s ih =>
    simp only [List.cons_append, following, unitLength_cons, byteLength_cons, ih]
    by_cases h : c = '\n' <;> simp [h, extend, Nat.add_assoc]

/-- The line starts of a file are those in a front and those behind it. -/
theorem all_append (front rest : List Char) :
    all (front ++ rest) = (all front).map (extend rest) ++
      following (unitLength front) (byteLength front) rest := by
  simp [all, following_append, extend]

theorem length_following (unit byte : Nat) (s : List Char) :
    (following unit byte s).length = s.count '\n' := by
  induction s generalizing unit byte with
  | nil => rfl
  | cons c s ih =>
    by_cases h : c = '\n' <;> simp [following, h, ih]

theorem length_all (s : List Char) : (all s).length = s.count '\n' + 1 := by
  simp [all, length_following]

theorem getLast?_all (front rest : List Char) :
    ((all front).map (extend rest)).getLast? = some (last front rest) := by
  induction front using List.reverseRecOn generalizing rest with
  | nil => simp [all, following, extend, last, closedLines, openLine]
  | append_singleton s c ih =>
    rw [all_append, List.map_append, List.map_map]
    by_cases h : c = '\n'
    · simp [following, h, last, extend, closedLines_concat, openLine_concat]
    · have hcomp : extend rest ∘ extend [c] = extend (c :: rest) := by
        funext start
        simp [extend]
      simp [following, h, hcomp, ih, last, closedLines_concat, openLine_concat]

/-- Line starts behind a front lie behind its end. -/
theorem lt_of_mem_following {unit byte : Nat} {s : List Char} {start : LineStart}
    (h : start ∈ following unit byte s) : unit < start.unit ∧ byte < start.byte := by
  induction s generalizing unit byte with
  | nil => simp [following] at h
  | cons c s ih =>
    have hunit := unitSize_pos c
    have hbyte := c.utf8Size_pos
    by_cases hc : c = '\n'
    · simp only [following, hc, if_true, List.mem_cons] at h
      rcases h with rfl | h
      · rw [hc] at hunit hbyte
        simp only
        omega
      · have := ih h
        rw [hc] at hunit hbyte
        omega
    · simp only [following, hc, if_false] at h
      have := ih h
      omega

/-- Line starts in a front lie in front of its end, or at it. -/
theorem le_of_mem_following {unit byte : Nat} {s : List Char} {start : LineStart}
    (h : start ∈ following unit byte s) :
    start.unit ≤ unit + unitLength s ∧ start.byte ≤ byte + byteLength s := by
  induction s generalizing unit byte with
  | nil => simp [following] at h
  | cons c s ih =>
    rw [unitLength_cons, byteLength_cons]
    by_cases hc : c = '\n'
    · simp only [following, hc, if_true, List.mem_cons] at h
      rcases h with rfl | h
      · rw [hc]
        simp only
        omega
      · have := ih h
        rw [hc]
        omega
    · simp only [following, hc, if_false] at h
      have := ih h
      omega

theorem le_of_mem_all {front rest : List Char} {start : LineStart}
    (h : start ∈ (all front).map (extend rest)) :
    start.unit ≤ unitLength front ∧ start.byte ≤ byteLength front := by
  obtain ⟨start, hstart, rfl⟩ := List.mem_map.mp h
  rcases List.mem_cons.mp hstart with rfl | hstart
  · simp [extend]
  · simpa [extend] using le_of_mem_following hstart

/-- The first line start behind a front stands behind the line feed that ends its last line. -/
theorem head?_following (unit byte : Nat) (s : List Char) :
    ((following unit byte s).head?.elim (byte + byteLength s) fun next => next.byte - 1) =
      byte + byteLength (firstLine s) := by
  induction s generalizing unit byte with
  | nil => simp [following, firstLine]
  | cons c s ih =>
    by_cases hc : c = '\n'
    · simp [following, hc, firstLine, utf8Size_newline]
    · have := ih (unit + unitSize c) (byte + c.utf8Size)
      simp only [firstLine] at this
      simpa [following, hc, firstLine, Nat.add_assoc] using this

end LineStart

end Stylesheet
