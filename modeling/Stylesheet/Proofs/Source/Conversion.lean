import Stylesheet.Proofs.Source.Counting

/-!
# Conversion of offsets

A line index converts offsets in bytes to offsets in code units by the line of the byte, and back by
the line of the unit. Each of the two conversions succeeds exactly between two characters, and they
are inverse to each other (`offsets_inverse`).
-/

namespace Stylesheet

open Text

/-- A conversion of the offsets of a file that succeeds at the places between two characters, and
leads from places further on to places further on. -/
structure ConvertsPlaces (convert : Nat → Except SourceError Nat) (length : Nat)
    (IsPlace : Nat → Prop) : Prop where
  beyond : ∀ n, length < n → convert n = .error (.outOfRange n length)
  inside : ∀ n, n ≤ length → ¬IsPlace n → convert n = .error (.splitsCodePoint n)
  between : ∀ n, n ≤ length → IsPlace n → ∃ m, convert n = .ok m
  lt : ∀ n n' m m', convert n = .ok m → convert n' = .ok m' → n < n' → m < m'

/-! ## Fronts of a text -/

/-- Of two fronts of a text the longer one is the longer by every measure. -/
theorem Text.measure_lt_of_measure_lt {size size' : Char → Nat} (hpos : ∀ c, 0 < size' c)
    {front rest front' rest' : List Char} (h : front ++ rest = front' ++ rest')
    (hlt : measure size front < measure size front') :
    measure size' front < measure size' front' := by
  rcases List.append_eq_append_iff.mp h with ⟨text, rfl, -⟩ | ⟨text, rfl, -⟩
  · cases text with
    | nil => simp at hlt
    | cons c text =>
      have := hpos c
      rw [measure_append, measure_cons]
      omega
  · rw [measure_append] at hlt
    omega

theorem Text.byteLength_toList (text : String) : byteLength text.toList = text.utf8ByteSize := by
  rw [byteLength_eq_utf8ByteSize, String.ofList_toList]

/-- The bytes of a front end at a boundary between two code points, and only those do. -/
theorem Text.isValid_iff {text : String} {byte : Nat} :
    (⟨byte⟩ : String.Pos.Raw).IsValid text ↔
      ∃ front rest, text.toList = front ++ rest ∧ byteLength front = byte := by
  rw [String.Pos.Raw.isValid_iff_exists_append]
  constructor
  · rintro ⟨front, rest, rfl, hbyte⟩
    refine ⟨front.toList, rest.toList, String.toList_append, ?_⟩
    rw [byteLength_toList]
    exact (congrArg String.Pos.Raw.byteIdx hbyte).symm
  · rintro ⟨front, rest, htext, rfl⟩
    refine ⟨String.ofList front, String.ofList rest, ?_, ?_⟩
    · rw [← String.ofList_append, ← htext, String.ofList_toList]
    · rw [byteLength_eq_utf8ByteSize]
      rfl

/-! ## From bytes to code units -/

namespace LineIndex

variable {source : String} {front rest : List Char} {offset : Nat}

theorem unitOffset_of_beyond {byte : Nat} (h : source.utf8ByteSize < byte) :
    (ofString source).unitOffset byte = .error (.outOfRange byte source.utf8ByteSize) := by
  have hlength : (ofString source).byteLength = source.utf8ByteSize := byteLength_toList source
  rw [unitOffset, hlength, if_pos h]

/-- What fails to convert and is not past the end is inside a character. -/
theorem unitOffset_of_not_isValid {byte : Nat} (hle : byte ≤ source.utf8ByteSize)
    (h : ¬(⟨byte⟩ : String.Pos.Raw).IsValid source) :
    (ofString source).unitOffset byte = .error (.splitsCodePoint byte) := by
  have hlength : (ofString source).byteLength = source.utf8ByteSize := byteLength_toList source
  have hfails : ∀ units, (ofString source).unitOffset byte ≠ .ok units := by
    intro units hunits
    obtain ⟨front, rest, hsplit, hbyte, -⟩ := unitOffset_eq_ok_iff.mp hunits
    exact h (isValid_iff.mpr ⟨front, rest, hsplit, hbyte⟩)
  rw [unitOffset, hlength, if_neg (Nat.not_lt.mpr hle)] at hfails ⊢
  dsimp only at hfails ⊢
  split
  · rename_i part behind hcut
    rw [hcut] at hfails
    exact absurd rfl (hfails _)
  · rfl

/-! ## From code units to bytes -/

theorem seek_of_beyond (h : (units source.toList).length < offset) :
    (ofString source).seek offset =
      .error (.outOfRange offset (units source.toList).length) := by
  rw [seek, locate_of_beyond h]
  rfl

/-- On the line of an offset inside a pair of surrogates there is no cut at its column. -/
theorem seek_of_splitsPair (hle : offset ≤ (units source.toList).length)
    (h : splitsPair (units source.toList) offset = true) :
    (ofString source).seek offset = .error (.splitsCodePoint offset) := by
  have hnone : ¬∃ front rest, source.toList = front ++ rest ∧ Text.unitLength front = offset := by
    rw [exists_front_iff, h]
    simp
  rw [length_units] at hle
  obtain ⟨front, rest, k, hsplit, rfl, hk, hnext⟩ := exists_place hle
  rw [seek, locate_eq_of_lt hsplit hk hnext, lineOfUnit_eq_of_lt hsplit hnext]
  simp only [bind, Except.bind, LineStart.last]
  split
  · rename_i part behind hcut
    obtain ⟨hparts, hmeasure⟩ := measure_cut? hcut
    have hclosed := unitLength_closedLines_add front
    have hpart : Text.unitLength part = Text.unitLength (openLine front) + k := hmeasure
    refine absurd ⟨closedLines front ++ part, behind, ?_, ?_⟩ hnone
    · rw [List.append_assoc, ← hparts, ← List.append_assoc, closedLines_append_openLine, hsplit]
    · rw [unitLength_append]
      omega
  · rfl

theorem byteOffset_of_seek_error {fault : SourceError}
    (h : (ofString source).seek offset = .error fault) :
    (ofString source).byteOffset offset = .error fault := by
  rw [byteOffset, h]
  rfl

theorem byteOffset_eq (h : source.toList = front ++ rest) :
    (ofString source).byteOffset (Text.unitLength front) = .ok (Text.byteLength front) := by
  rw [byteOffset, seek_eq h]
  rfl

/-- The offsets in code units that convert are those at which the text can be cut. -/
theorem byteOffset_eq_ok_iff {byte : Nat} :
    (ofString source).byteOffset offset = .ok byte ↔
      ∃ front rest, source.toList = front ++ rest ∧ Text.byteLength front = byte ∧
        Text.unitLength front = offset := by
  constructor
  · intro hbyte
    have hle : offset ≤ (units source.toList).length := by
      by_contra hlt
      rw [byteOffset_of_seek_error (seek_of_beyond (Nat.lt_of_not_le hlt))] at hbyte
      contradiction
    have hbetween : splitsPair (units source.toList) offset = false := by
      rw [Bool.eq_false_iff]
      intro hsplits
      rw [byteOffset_of_seek_error (seek_of_splitsPair hle hsplits)] at hbyte
      contradiction
    obtain ⟨front, rest, hsplit, rfl⟩ := exists_front_iff.mpr ⟨hle, hbetween⟩
    rw [byteOffset_eq hsplit] at hbyte
    exact ⟨front, rest, hsplit, Except.ok.inj hbyte, rfl⟩
  · rintro ⟨front, rest, hsplit, rfl, rfl⟩
    exact byteOffset_eq hsplit

/-! ## Both ways -/

theorem unitOffset_converts (source : String) :
    ConvertsPlaces (ofString source).unitOffset source.utf8ByteSize
      (fun byte => (⟨byte⟩ : String.Pos.Raw).IsValid source) where
  beyond _ h := unitOffset_of_beyond h
  inside _ hle h := unitOffset_of_not_isValid hle h
  between byte _ h := by
    obtain ⟨front, rest, hsplit, hbyte⟩ := isValid_iff.mp h
    exact ⟨_, unitOffset_eq_ok_iff.mpr ⟨front, rest, hsplit, hbyte, rfl⟩⟩
  lt byte byte' offset offset' h h' hlt := by
    obtain ⟨front, rest, hsplit, rfl, rfl⟩ := unitOffset_eq_ok_iff.mp h
    obtain ⟨front', rest', hsplit', rfl, rfl⟩ := unitOffset_eq_ok_iff.mp h'
    exact measure_lt_of_measure_lt unitSize_pos (hsplit.symm.trans hsplit') hlt

theorem byteOffset_converts (source : String) :
    ConvertsPlaces (ofString source).byteOffset (units source.toList).length
      (fun offset => splitsPair (units source.toList) offset = false) where
  beyond _ h := byteOffset_of_seek_error (seek_of_beyond h)
  inside _ hle h := byteOffset_of_seek_error (seek_of_splitsPair hle (Bool.of_not_eq_false h))
  between offset hle h := by
    obtain ⟨front, rest, hsplit, hoffset⟩ := exists_front_iff.mpr ⟨hle, h⟩
    exact ⟨_, byteOffset_eq_ok_iff.mpr ⟨front, rest, hsplit, rfl, hoffset⟩⟩
  lt offset offset' byte byte' h h' hlt := by
    obtain ⟨front, rest, hsplit, rfl, rfl⟩ := byteOffset_eq_ok_iff.mp h
    obtain ⟨front', rest', hsplit', rfl, rfl⟩ := byteOffset_eq_ok_iff.mp h'
    exact measure_lt_of_measure_lt Char.utf8Size_pos (hsplit.symm.trans hsplit') hlt

end LineIndex

/-- Byte offsets convert at the boundaries of code points, offsets in code units where they split no
pair of surrogates, and what one conversion leads to the other leads back. -/
theorem offsets_inverse (text : String) :
    let index := LineIndex.ofString text
    let us := units text.toList
    ConvertsPlaces index.unitOffset text.utf8ByteSize
        (fun byte => (⟨byte⟩ : String.Pos.Raw).IsValid text) ∧
      ConvertsPlaces index.byteOffset us.length (fun offset => splitsPair us offset = false) ∧
      ∀ byte offset, index.unitOffset byte = .ok offset ↔ index.byteOffset offset = .ok byte := by
  refine ⟨LineIndex.unitOffset_converts text, LineIndex.byteOffset_converts text, ?_⟩
  intro byte offset
  rw [LineIndex.unitOffset_eq_ok_iff, LineIndex.byteOffset_eq_ok_iff]

end Stylesheet
