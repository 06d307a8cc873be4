/-!
# Reading UTF-8

Bytes are read one at a time. What is still owed to a character under way is the whole state of
the reader, so a sequence that breaks off is noticed at the first byte that cannot continue it:
each maximal part of a well-formed sequence, and each byte that begins none, is malformed once.
-/

namespace Stylesheet.Text.Utf8

/-- A character under way: the bits read so far, the bytes still owed, and the range in which the
next of them lies. -/
structure Pending where
  bits : Nat
  owed : Nat
  low : Nat
  high : Nat
deriving DecidableEq, Repr

/-- What one byte does: it completes some characters, malformed ones being `none`, and may leave
one under way. -/
abbrev Step := List (Option Char) × Option Pending

/-- The first byte of a character. The range of the second byte keeps out overlong forms,
surrogates and what lies beyond the last code point. -/
def lead (b : Nat) : Step :=
  if b < 0x80 then ([some (Char.ofNat b)], none)
  else if b < 0xC2 then ([none], none)
  else if b < 0xE0 then ([], some ⟨b - 0xC0, 1, 0x80, 0xBF⟩)
  else if b < 0xF0 then
    ([], some ⟨b - 0xE0, 2, if b = 0xE0 then 0xA0 else 0x80, if b = 0xED then 0x9F else 0xBF⟩)
  else if b < 0xF5 then
    ([], some ⟨b - 0xF0, 3, if b = 0xF0 then 0x90 else 0x80, if b = 0xF4 then 0x8F else 0xBF⟩)
  else ([none], none)

/-- A byte that cannot continue the character under way ends it malformed and is then read as a
first byte. -/
def step (state : Option Pending) (b : Nat) : Step :=
  match state with
  | none => lead b
  | some p =>
    if p.low ≤ b ∧ b ≤ p.high then
      let bits := p.bits * 64 + b % 64
      if p.owed ≤ 1 then ([some (Char.ofNat bits)], none)
      else ([], some ⟨bits, p.owed - 1, 0x80, 0xBF⟩)
    else (none :: (lead b).1, (lead b).2)

/-- Reads bytes to the end, where a character still under way is malformed. -/
def read : Option Pending → List UInt8 → List (Option Char)
  | none, [] => []
  | some _, [] => [none]
  | state, b :: bytes => (step state b.toNat).1 ++ read (step state b.toNat).2 bytes

/-- The text of well-formed bytes. -/
def decode? (bytes : List UInt8) : Option String :=
  ((read none bytes).mapM id).map String.ofList

/-- The text of any bytes, with U+FFFD in the place of each malformed sequence. -/
def decodeLossy (bytes : List UInt8) : String :=
  String.ofList ((read none bytes).map (·.getD '\uFFFD'))

/-- The bytes of a text. -/
def encode (s : String) : List UInt8 := s.toList.flatMap String.utf8EncodeChar

end Stylesheet.Text.Utf8
