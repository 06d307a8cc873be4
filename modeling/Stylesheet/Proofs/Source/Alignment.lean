import Stylesheet.Source.Span

/-!
# Texts aligned in a context

What it is for a text to stand at a column of a line of a context, as a split of the context
(`isAligned_decides`). The check searches from character to character; `searchLines` is the same
search from one line to the next, which is over after as many turns as the context has lines.
-/

namespace Stylesheet.Span

open Text

variable {column : Nat} {text context : List Char}

/-! ## The first line -/

theorem standsAt_iff : standsAt column text context = true ↔
    ∃ front rest, context = front ++ text ++ rest ∧ '\n' ∉ front ∧ unitLength front = column := by
  unfold standsAt
  constructor
  · intro h
    cases hcut : cut? unitSize column context with
    | none => simp [hcut] at h
    | some parts =>
      obtain ⟨front, rest⟩ := parts
      obtain ⟨rfl, hcolumn⟩ := measure_cut? hcut
      simp only [hcut, Bool.and_eq_true, Bool.not_eq_true', List.isPrefixOf_iff_prefix] at h
      obtain ⟨hfront, rest, rfl⟩ := h
      exact ⟨front, rest, by rw [List.append_assoc], by simpa using hfront, hcolumn⟩
  · rintro ⟨front, rest, rfl, hfront, rfl⟩
    have hcut : cut? unitSize (unitLength front) (front ++ (text ++ rest)) =
        some (front, text ++ rest) := cut?_append unitSize_pos front (text ++ rest)
    rw [List.append_assoc, hcut]
    simp [hfront]

/-! ## The lines below -/

theorem standsBelow_iff : standsBelow column text context = true ↔
    ∃ lines below, context = lines ++ '\n' :: below ∧ standsAt column text below = true := by
  induction context with
  | nil => simp [standsBelow]
  | cons c context ih =>
    rw [standsBelow, Bool.or_eq_true, Bool.and_eq_true, beq_iff_eq, ih]
    constructor
    · rintro (⟨rfl, h⟩ | ⟨lines, below, rfl, h⟩)
      · exact ⟨[], context, rfl, h⟩
      · exact ⟨c :: lines, below, rfl, h⟩
    · rintro ⟨lines, below, heq, h⟩
      cases lines with
      | nil =>
        obtain ⟨rfl, rfl⟩ := List.cons.inj heq
        exact .inl ⟨rfl, h⟩
      | cons d lines =>
        obtain ⟨rfl, rfl⟩ := List.cons.inj heq
        exact .inr ⟨lines, below, rfl, h⟩

/-- A text that is aligned stands behind whole lines and the front of one more. -/
theorem isAligned_iff : isAligned column text context = true ↔
    ∃ lines front rest, context = lines ++ front ++ text ++ rest ∧
      (lines = [] ∨ lines.getLast? = some '\n') ∧ '\n' ∉ front ∧ unitLength front = column := by
  rw [isAligned, Bool.or_eq_true, standsAt_iff, standsBelow_iff]
  constructor
  · rintro (⟨front, rest, rfl, h⟩ | ⟨lines, below, rfl, h⟩)
    · exact ⟨[], front, rest, rfl, .inl rfl, h⟩
    · obtain ⟨front, rest, rfl, hfront⟩ := standsAt_iff.mp h
      exact ⟨lines ++ ['\n'], front, rest, by simp, .inr (by simp), hfront⟩
  · rintro ⟨lines, front, rest, rfl, hlines | hlines, h⟩
    · subst hlines
      exact .inl ⟨front, rest, rfl, h⟩
    · obtain ⟨lines, rfl⟩ := List.getLast?_eq_some_iff.mp hlines
      exact .inr ⟨lines, front ++ text ++ rest, by simp, standsAt_iff.mpr ⟨front, rest, rfl, h⟩⟩

/-! ## From line to line -/

/-- What stands at a column of the first line of a text, with some code units of the line passed.
The column may be that of the line feed, or the end of a text without one. -/
def restAt? (column : Nat) : Nat → List Char → Option (List Char)
  | units, [] => if units = column then some [] else none
  | units, c :: s =>
    if units = column then some (c :: s)
    else if column < units ∨ c = '\n' then none
    else restAt? column (units + unitSize c) s

/-- Looks for a text at a column of one line after another, as far as a number of turns. -/
def searchLines (column : Nat) (text : List Char) : Nat → List Char → Option Bool
  | 0, _ => none
  | turns + 1, s =>
    if (restAt? column 0 s).any text.isPrefixOf then some true
    else
      match s.dropWhile (· != '\n') with
      | [] => some false
      | _ :: below => searchLines column text turns below

theorem restAt?_of_lt {units : Nat} (h : column < units) (s : List Char) :
    restAt? column units s = none := by
  cases s <;> simp [restAt?, h, Nat.ne_of_gt h]

theorem restAt?_eq_cut? {units : Nat} (h : units ≤ column) (s : List Char) :
    restAt? column units s = (cut? unitSize (column - units) s).bind fun (front, rest) =>
      if '\n' ∈ front then none else some rest := by
  induction s generalizing units with
  | nil =>
    rcases Nat.eq_or_lt_of_le h with rfl | hlt
    · simp [restAt?, cut?]
    · obtain ⟨k, hk⟩ := Nat.exists_eq_add_one_of_ne_zero (Nat.sub_ne_zero_of_lt hlt)
      simp [restAt?, Nat.ne_of_lt hlt, hk, cut?]
  | cons c s ih =>
    rcases Nat.eq_or_lt_of_le h with rfl | hlt
    · simp [restAt?, cut?]
    · obtain ⟨k, hk⟩ := Nat.exists_eq_add_one_of_ne_zero (Nat.sub_ne_zero_of_lt hlt)
      rw [restAt?, if_neg (Nat.ne_of_lt hlt), hk, cut?]
      by_cases hc : c = '\n'
      · -- a line feed ends the line in front of the column
        rw [if_pos (.inr hc)]
        split
        · cases hcut : cut? unitSize (k + 1 - unitSize c) s with
          | none => rfl
          | some parts => simp [hc]
        · rfl
      · rw [if_neg (by simp [hc, Nat.not_lt_of_lt hlt])]
        by_cases hsize : unitSize c ≤ k + 1
        · have hunits : column - (units + unitSize c) = k + 1 - unitSize c := by omega
          rw [if_pos hsize, ih (by omega), hunits]
          cases hcut : cut? unitSize (k + 1 - unitSize c) s with
          | none => rfl
          | some parts => simp [Ne.symm hc]
        · -- the column lies inside the character
          rw [if_neg hsize, restAt?_of_lt (by omega)]
          rfl

theorem standsAt_eq_any (column : Nat) (text s : List Char) :
    standsAt column text s = (restAt? column 0 s).any text.isPrefixOf := by
  rw [restAt?_eq_cut? (Nat.zero_le column), Nat.sub_zero, standsAt]
  cases hcut : cut? unitSize column s with
  | none => rfl
  | some parts =>
    obtain ⟨front, rest⟩ := parts
    by_cases hfront : '\n' ∈ front <;> simp [hfront]

/-- What stands below the first line stands in what follows its line feed. -/
theorem standsBelow_eq (column : Nat) (text s : List Char) :
    standsBelow column text s =
      match s.dropWhile (· != '\n') with
      | [] => false
      | _ :: below => isAligned column text below := by
  induction s with
  | nil => rfl
  | cons c s ih =>
    by_cases hc : c = '\n'
    · simp [standsBelow, hc, isAligned]
    · simp [standsBelow, hc, ih]

theorem count_newline_of_dropWhile {c : Char} {s below : List Char}
    (h : s.dropWhile (· != '\n') = c :: below) : s.count '\n' = below.count '\n' + 1 := by
  induction s with
  | nil => contradiction
  | cons d s ih =>
    by_cases hd : d = '\n'
    · simp only [hd, bne_self_eq_false, Bool.false_eq_true, not_false_eq_true,
        List.dropWhile_cons_of_neg, List.cons.injEq] at h
      rw [hd, List.count_cons_self, h.2]
    · rw [List.dropWhile_cons_of_pos (by simpa using hd)] at h
      rw [List.count_cons_of_ne hd, ih h]

theorem searchLines_eq {turns : Nat} (h : context.count '\n' < turns) :
    searchLines column text turns context = some (isAligned column text context) := by
  induction turns generalizing context with
  | zero => exact absurd h (Nat.not_lt_zero _)
  | succ turns ih =>
    rw [searchLines, isAligned, ← standsAt_eq_any, standsBelow_eq]
    cases standsAt column text context with
    | true => rfl
    | false =>
      cases hbelow : context.dropWhile (· != '\n') with
      | nil => rfl
      | cons c below =>
        have hcount := count_newline_of_dropWhile hbelow
        simpa using ih (by omega)

/-- A text is aligned in a context exactly if the context can be split into whole lines, as many
code units of the next line as the column counts, the text and a rest. The search from line to
line comes to this answer in as many turns as there are lines. -/
theorem isAligned_decides (column : Nat) (text context : List Char) :
    (isAligned column text context = true ↔
      ∃ lines front rest, context = lines ++ front ++ text ++ rest ∧
        (lines = [] ∨ lines.getLast? = some '\n') ∧ '\n' ∉ front ∧ unitLength front = column) ∧
      searchLines column text (context.count '\n' + 1) context =
        some (isAligned column text context) :=
  ⟨isAligned_iff, searchLines_eq (Nat.lt_succ_self _)⟩

/-- The place of a line feed, a text of two lines at the last line, and a column inside a character
of two code units. -/
example : isAligned 2 "\ncd".toList "ab\ncd".toList = true ∧ isAligned 0 [] "a\n".toList = true ∧
    isAligned 1 "ab".toList "😀ab".toList = false := by
  decide +kernel

end Stylesheet.Span
