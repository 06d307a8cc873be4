import Stylesheet.Proofs.Source.Image

/-!
# Offsets between two systems

A byte offset converts to code units exactly where it cuts the text. With that the span between two
converted offsets is an image whether it carries context or not, so that asking for context cannot
turn a span into an error (`span_image_or_reversed`).
-/

namespace Stylesheet

open Text

/-! ## The place of an offset -/

/-- An offset stands behind a front of a text, or inside the character behind it. -/
theorem Text.exists_front_le (size : Char → Nat) (n : Nat) (s : List Char) :
    ∃ front rest, s = front ++ rest ∧ measure size front ≤ n ∧
      ∀ c tail, rest = c :: tail → n < measure size front + size c := by
  induction s generalizing n with
  | nil => exact ⟨[], [], rfl, by simp, by simp⟩
  | cons c s ih =>
    by_cases hc : size c ≤ n
    · obtain ⟨front, rest, rfl, hle, hnext⟩ := ih (n - size c)
      refine ⟨c :: front, rest, rfl, ?_, ?_⟩
      · rw [measure_cons]
        omega
      · intro d tail htail
        have := hnext d tail htail
        rw [measure_cons]
        omega
    · refine ⟨[], c :: s, rfl, by simp, ?_⟩
      intro d tail htail
      obtain ⟨rfl, rfl⟩ := List.cons.inj htail
      simpa using Nat.lt_of_not_le hc

/-- Line starts behind a character stand behind all of its units and bytes. -/
theorem LineStart.le_of_mem_following_cons {unit byte : Nat} {c : Char} {s : List Char}
    {start : LineStart} (h : start ∈ following unit byte (c :: s)) :
    unit + unitSize c ≤ start.unit ∧ byte + c.utf8Size ≤ start.byte := by
  by_cases hc : c = '\n'
  · simp only [following, hc, if_true, List.mem_cons] at h
    rcases h with rfl | h
    · rw [hc]
      simp
    · have := lt_of_mem_following h
      rw [hc]
      omega
  · simp only [following, hc, if_false] at h
    have := lt_of_mem_following h
    omega

namespace LineIndex

variable {source : String} {front rest : List Char}

/-- The line of an offset in code units is the one on which the front of the offset ends. -/
theorem lineOfUnit_eq_of_le {offset : Nat} (h : source.toList = front ++ rest)
    (hle : Text.unitLength front ≤ offset)
    (hnext : ∀ c tail, rest = c :: tail → offset < Text.unitLength front + unitSize c) :
    (ofString source).lineOfUnit offset = (front.count '\n', LineStart.last front rest) := by
  apply lastLine_eq_of_mem h
  · intro start hstart
    exact decide_eq_true (Nat.le_trans (LineStart.le_of_mem_all hstart).1 hle)
  · intro start hstart
    cases rest with
    | nil => contradiction
    | cons c tail =>
      have hbehind := (LineStart.le_of_mem_following_cons hstart).1
      have hoffset := hnext c tail rfl
      exact decide_eq_false (by omega)

/-- The line of an offset in bytes is the one on which the front of the offset ends. -/
theorem lineOfByte_eq_of_le {offset : Nat} (h : source.toList = front ++ rest)
    (hle : Text.byteLength front ≤ offset)
    (hnext : ∀ c tail, rest = c :: tail → offset < Text.byteLength front + c.utf8Size) :
    (ofString source).lineOfByte offset = (front.count '\n', LineStart.last front rest) := by
  apply lastLine_eq_of_mem h
  · intro start hstart
    exact decide_eq_true (Nat.le_trans (LineStart.le_of_mem_all hstart).2 hle)
  · intro start hstart
    cases rest with
    | nil => contradiction
    | cons c tail =>
      have hbehind := (LineStart.le_of_mem_following_cons hstart).2
      have hoffset := hnext c tail rfl
      exact decide_eq_false (by omega)

/-- The byte offsets that convert are those at which the text can be cut. -/
theorem unitOffset_eq_ok_iff {offset units : Nat} :
    (ofString source).unitOffset offset = .ok units ↔
      ∃ front rest, source.toList = front ++ rest ∧ Text.byteLength front = offset ∧
        Text.unitLength front = units := by
  constructor
  · intro hunits
    obtain ⟨front, rest, hsplit, hle, hnext⟩ :=
      Text.exists_front_le Char.utf8Size offset source.toList
    rw [unitOffset] at hunits
    split at hunits
    · contradiction
    rw [lineOfByte_eq_of_le hsplit hle hnext] at hunits
    simp only [LineStart.last] at hunits
    split at hunits
    · rename_i part behind hcut
      obtain ⟨hparts, hmeasure⟩ := measure_cut? hcut
      have hclosed := byteLength_closedLines_add front
      refine ⟨closedLines front ++ part, behind, ?_, ?_, ?_⟩
      · rw [List.append_assoc, ← hparts, ← List.append_assoc, closedLines_append_openLine, hsplit]
      · have hpart : Text.byteLength part =
            offset - Text.byteLength (closedLines front) := hmeasure
        have hfront : Text.byteLength front ≤ offset := hle
        rw [byteLength_append]
        omega
      · rw [unitLength_append]
        exact Except.ok.inj hunits
    · contradiction
  · rintro ⟨front, rest, hsplit, rfl, rfl⟩
    exact unitOffset_eq hsplit

/-! ## Spans with and without context -/

/-- Two fronts of one text lie one behind the other. -/
theorem exists_append_of_unitLength_le {front' rest' : List Char}
    (h : front ++ rest = front' ++ rest')
    (hle : Text.unitLength front ≤ Text.unitLength front') :
    ∃ text, front' = front ++ text := by
  rcases List.append_eq_append_iff.mp h with ⟨text, hfront, _⟩ | ⟨text, hfront, _⟩
  · exact ⟨text, hfront⟩
  · cases text with
    | nil => exact ⟨[], by simp [hfront]⟩
    | cons c text =>
      have hpos := unitSize_pos c
      rw [hfront, unitLength_append, unitLength_cons] at hle
      omega

/-- Between offsets that convert there is an image, or else they are the wrong way round. Neither
depends on whether context is asked for. -/
theorem span_image_or_reversed {startByte stopByte start stop : Nat}
    (hstart : (ofString source).unitOffset startByte = .ok start)
    (hstop : (ofString source).unitOffset stopByte = .ok stop) :
    (∃ front text rest, ∀ url includeContext,
      (ofString source).span url start stop includeContext =
        .ok (Span.image front text rest url includeContext)) ∨
      ∃ fault, ∀ url includeContext,
        (ofString source).span url start stop includeContext = .error fault := by
  obtain ⟨front, rest, hsplit, _, rfl⟩ := unitOffset_eq_ok_iff.mp hstart
  obtain ⟨front', rest', hsplit', _, rfl⟩ := unitOffset_eq_ok_iff.mp hstop
  by_cases hle : Text.unitLength front ≤ Text.unitLength front'
  · obtain ⟨text, rfl⟩ := exists_append_of_unitLength_le (hsplit.symm.trans hsplit') hle
    exact .inl ⟨front, text, rest', fun url includeContext =>
      span_eq_image url includeContext hsplit'⟩
  · refine .inr ⟨.invalidRange (Text.unitLength front) (Text.unitLength front')
      (ofString source).length, fun url includeContext => ?_⟩
    rw [span, if_pos (.inl (Nat.lt_of_not_le hle))]

end LineIndex

end Stylesheet
