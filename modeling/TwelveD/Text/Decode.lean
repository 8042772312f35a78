import TwelveD.Text.Bytes

/-!
# Reading bytes as text, whatever they are

Bytes that are not UTF-8 are read with one replacement character for each longest piece that starts
like a character and then breaks off, and one for each byte that starts none. The reader is a step
over single bytes: `Pending` is a character of which some bytes are still to come.
-/

namespace TwelveD.Text

/-- The character that stands for bytes that are no character. -/
def replacement : Char := '�'

/-- The first bytes of a character, and what may come next. -/
structure Pending where
  /-- The bits read so far. -/
  bits : Nat
  /-- How many bytes are missing, less one. -/
  more : Nat
  /-- The least next byte. -/
  low : UInt8
  /-- The greatest next byte. -/
  high : UInt8
  deriving DecidableEq, Repr

/-- What the first byte of a character says. -/
inductive Lead where
  /-- The byte is a character by itself. -/
  | single (c : Char)
  /-- More bytes have to follow. -/
  | opens (p : Pending)
  /-- No character starts with this byte. -/
  | stray
  deriving DecidableEq, Repr

/-- The reading of a byte at which a character should start. The bounds on the second byte keep out
    characters written with more bytes than they need, surrogates, and numbers past the last
    character. -/
def lead (b : UInt8) : Lead :=
  let n := b.toNat
  if n < 0x80 then .single (Char.ofNat n)
  else if n < 0xC2 then .stray
  else if n < 0xE0 then .opens ⟨n - 0xC0, 0, 0x80, 0xBF⟩
  else if n = 0xE0 then .opens ⟨0, 1, 0xA0, 0xBF⟩
  else if n = 0xED then .opens ⟨0xD, 1, 0x80, 0x9F⟩
  else if n < 0xF0 then .opens ⟨n - 0xE0, 1, 0x80, 0xBF⟩
  else if n = 0xF0 then .opens ⟨0, 2, 0x90, 0xBF⟩
  else if n < 0xF4 then .opens ⟨n - 0xF0, 2, 0x80, 0xBF⟩
  else if n = 0xF4 then .opens ⟨4, 2, 0x80, 0x8F⟩
  else .stray

/-- Reads bytes, the first of which may belong to a character that has already started. -/
def decodeFrom : Option Pending → Bytes → List Char
  | none, [] => []
  | some _, [] => [replacement]
  | some p, b :: rest =>
    if p.low ≤ b ∧ b ≤ p.high then
      let bits := p.bits * 0x40 + (b.toNat - 0x80)
      match p.more with
      | 0 => Char.ofNat bits :: decodeFrom none rest
      | more + 1 => decodeFrom (some ⟨bits, more, 0x80, 0xBF⟩) rest
    else
      match lead b with
      | .single c => replacement :: c :: decodeFrom none rest
      | .opens q => replacement :: decodeFrom (some q) rest
      | .stray => replacement :: replacement :: decodeFrom none rest
  | none, b :: rest =>
    match lead b with
    | .single c => c :: decodeFrom none rest
    | .opens q => decodeFrom (some q) rest
    | .stray => replacement :: decodeFrom none rest

/-- Reads bytes as text, with replacement characters where they are no text. -/
def decode (bytes : Bytes) : List Char := decodeFrom none bytes

end TwelveD.Text
