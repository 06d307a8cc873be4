import Mathlib.Logic.Function.Basic
import Mathlib.Tactic.SplitIfs
import Stylesheet.Text.Utf8

/-!
# Reading what was written

The reader of UTF-8 gives back each character from the bytes that are written for it, so texts and
their bytes determine each other.
-/

namespace Stylesheet.Text.Utf8

/-! ## One character -/

theorem lead_one {b : Nat} (h : b < 0x80) : lead b = ([some (Char.ofNat b)], none) := by
  rw [lead, if_pos h]

theorem lead_two {b : Nat} (hlow : 0xC2 ≤ b) (hhigh : b < 0xE0) :
    lead b = ([], some ⟨b - 0xC0, 1, 0x80, 0xBF⟩) := by
  rw [lead, if_neg (by omega), if_neg (by omega), if_pos hhigh]

theorem lead_three {b : Nat} (hlow : 0xE0 ≤ b) (hhigh : b < 0xF0) :
    lead b = ([], some ⟨b - 0xE0, 2, if b = 0xE0 then 0xA0 else 0x80,
      if b = 0xED then 0x9F else 0xBF⟩) := by
  rw [lead, if_neg (by omega), if_neg (by omega), if_neg (by omega), if_pos hhigh]

theorem lead_four {b : Nat} (hlow : 0xF0 ≤ b) (hhigh : b < 0xF5) :
    lead b = ([], some ⟨b - 0xF0, 3, if b = 0xF0 then 0x90 else 0x80,
      if b = 0xF4 then 0x8F else 0xBF⟩) := by
  rw [lead, if_neg (by omega), if_neg (by omega), if_neg (by omega), if_neg (by omega),
    if_pos hhigh]

variable {b : UInt8} {bytes : List UInt8} {bits owed low high : Nat}

theorem read_lead {p : Pending} (h : lead b.toNat = ([], some p)) :
    read none (b :: bytes) = read (some p) bytes := by
  rw [read, step, h, List.nil_append]

theorem read_more (hlow : low ≤ b.toNat) (hhigh : b.toNat ≤ high) (howed : 1 < owed) :
    read (some ⟨bits, owed, low, high⟩) (b :: bytes) =
      read (some ⟨bits * 64 + b.toNat % 64, owed - 1, 0x80, 0xBF⟩) bytes := by
  rw [read, step, if_pos ⟨hlow, hhigh⟩]
  simp [Nat.not_le.mpr howed]

theorem read_last (hlow : low ≤ b.toNat) (hhigh : b.toNat ≤ high) :
    read (some ⟨bits, 1, low, high⟩) (b :: bytes) =
      some (Char.ofNat (bits * 64 + b.toNat % 64)) :: read none bytes := by
  rw [read, step, if_pos ⟨hlow, hhigh⟩]
  simp

theorem toNat_ofNat {n : Nat} (h : n < 256) : (UInt8.ofNat n).toNat = n := by
  simp [Nat.mod_eq_of_lt h]

/-- A character comes back from its one to four bytes. The bounds on its second byte are those
between which no code point is overlong, a surrogate or beyond the last one. -/
theorem read_utf8EncodeChar (c : Char) (bytes : List UInt8) :
    read none (String.utf8EncodeChar c ++ bytes) = some c :: read none bytes := by
  have hvalid : c.toNat < 0xD800 ∨ 0xDFFF < c.toNat ∧ c.toNat < 0x110000 := c.valid
  have hchar {n : Nat} (h : n = c.toNat) : Char.ofNat n = c := h ▸ Char.ofNat_toNat c
  simp only [String.utf8EncodeChar, show c.val.toNat = c.toNat from rfl]
  generalize c.toNat = n at hvalid hchar ⊢
  split_ifs with hone htwo hthree
  · have hfirst : (UInt8.ofNat n).toNat = n := toNat_ofNat (by omega)
    rw [List.singleton_append, read, step, hfirst, lead_one (by omega), hchar rfl]
    rfl
  · have hfirst : (UInt8.ofNat (n / 64 % 32 + 192)).toNat = n / 64 + 192 := by
      rw [toNat_ofNat (by omega)]
      omega
    have hsecond : (UInt8.ofNat (n % 64 + 128)).toNat = n % 64 + 128 := toNat_ofNat (by omega)
    simp only [List.cons_append, List.nil_append]
    rw [read_lead (lead_two (by omega) (by omega)), read_last (by omega) (by omega),
      hchar (by omega)]
  · have hfirst : (UInt8.ofNat (n / 4096 % 16 + 224)).toNat = n / 4096 + 224 := by
      rw [toNat_ofNat (by omega)]
      omega
    have hsecond : (UInt8.ofNat (n / 64 % 64 + 128)).toNat = n / 64 % 64 + 128 :=
      toNat_ofNat (by omega)
    have hthird : (UInt8.ofNat (n % 64 + 128)).toNat = n % 64 + 128 := toNat_ofNat (by omega)
    simp only [List.cons_append, List.nil_append]
    rw [read_lead (lead_three (by omega) (by omega)),
      read_more (by split <;> omega) (by split <;> omega) (by omega),
      read_last (by omega) (by omega), hchar (by omega)]
  · have hfirst : (UInt8.ofNat (n / 262144 % 8 + 240)).toNat = n / 262144 + 240 := by
      rw [toNat_ofNat (by omega)]
      omega
    have hsecond : (UInt8.ofNat (n / 4096 % 64 + 128)).toNat = n / 4096 % 64 + 128 :=
      toNat_ofNat (by omega)
    have hthird : (UInt8.ofNat (n / 64 % 64 + 128)).toNat = n / 64 % 64 + 128 :=
      toNat_ofNat (by omega)
    have hfourth : (UInt8.ofNat (n % 64 + 128)).toNat = n % 64 + 128 := toNat_ofNat (by omega)
    simp only [List.cons_append, List.nil_append]
    rw [read_lead (lead_four (by omega) (by omega)),
      read_more (by split <;> omega) (by split <;> omega) (by omega),
      read_more (by omega) (by omega) (by omega), read_last (by omega) (by omega),
      hchar (by omega)]

/-! ## Whole texts -/

theorem read_encode (s : String) : read none (encode s) = s.toList.map some := by
  rw [encode]
  induction s.toList with
  | nil => rfl
  | cons c chars ih => rw [List.flatMap_cons, read_utf8EncodeChar, ih, List.map_cons]

theorem decodeLossy_encode (s : String) : decodeLossy (encode s) = s := by
  simp [decodeLossy, read_encode, Function.comp_def]

theorem mapM_id_eq_some_iff {α : Type} {l : List (Option α)} {as : List α} :
    l.mapM id = some as ↔ l = as.map some := by
  induction l generalizing as with
  | nil => cases as <;> simp
  | cons o l ih =>
    rw [List.mapM_cons]
    cases o with
    | none => cases as <;> simp
    | some a =>
      cases as with
      | nil => simp [Option.bind_eq_some_iff]
      | cons b as => simpa [ih, Option.bind_eq_some_iff] using and_comm

/-- Well-formed bytes are read as the characters of their text. -/
theorem decode?_eq_some_iff {s : String} :
    decode? bytes = some s ↔ read none bytes = s.toList.map some := by
  rw [decode?, Option.map_eq_some_iff]
  constructor
  · rintro ⟨chars, hchars, rfl⟩
    rw [mapM_id_eq_some_iff.mp hchars, String.toList_ofList]
  · intro h
    exact ⟨s.toList, mapM_id_eq_some_iff.mpr h, String.ofList_toList⟩

theorem decode?_encode (s : String) : decode? (encode s) = some s :=
  decode?_eq_some_iff.mpr (read_encode s)

/-- Bytes that are well-formed to their end are read apart from what follows them. -/
theorem read_append {state : Option Pending} (h : none ∉ read state bytes) (more : List UInt8) :
    read state (bytes ++ more) = read state bytes ++ read none more := by
  induction bytes generalizing state with
  | nil =>
    cases state with
    | none => rfl
    | some p => exact absurd (List.mem_singleton.mpr rfl) h
  | cons b bytes ih =>
    rw [read, List.mem_append, not_or] at h
    rw [List.cons_append, read, read, ih h.2, List.append_assoc]

theorem decodeLossy_append {s : String} (h : decode? bytes = some s) (more : List UInt8) :
    decodeLossy (bytes ++ more) = s ++ decodeLossy more := by
  rw [decode?_eq_some_iff] at h
  rw [decodeLossy, read_append (by simp [h]), h, decodeLossy]
  apply String.toList_inj.mp
  simp [Function.comp_def]

theorem encode_injective : Function.Injective encode := fun s t h => by
  rw [← decodeLossy_encode s, h, decodeLossy_encode t]

end Stylesheet.Text.Utf8
