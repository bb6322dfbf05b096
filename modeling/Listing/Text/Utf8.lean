/-!
# Reading bytes as UTF-8

Bytes that are not UTF-8 are read as replacement characters, one for each longest run that could
still have become a character.
-/

namespace Listing.Text.Utf8

/-- The character that stands for bytes that cannot be read. -/
def replacement : Char := '\uFFFD'

/-- A character of which some bytes have been read. -/
structure Pending where
  /-- The bits read so far. -/
  bits : Nat
  /-- How many bytes are still to come after the next one. -/
  missing : Nat
  /-- The least value of the next byte. -/
  low : UInt8 := 0x80
  /-- The greatest value of the next byte. -/
  high : UInt8 := 0xBF
  deriving DecidableEq, Repr

/-- What the first byte of a character says. -/
inductive Lead where
  /-- The character is this one byte. -/
  | single (c : Char)
  /-- More bytes follow. -/
  | more (pending : Pending)
  /-- No character starts with this byte. -/
  | none
  deriving DecidableEq, Repr

/-- What a byte says as the first one of a character. The next byte is bounded so that no
character has a longer form than needed, is a surrogate or lies beyond the last code point. -/
def lead (b : UInt8) : Lead :=
  let n := b.toNat
  if n < 0x80 then .single (Char.ofNat n)
  else if n < 0xC2 then .none
  else if n < 0xE0 then .more { bits := n - 0xC0, missing := 0 }
  else if n = 0xE0 then .more { bits := 0, missing := 1, low := 0xA0 }
  else if n = 0xED then .more { bits := 0xD, missing := 1, high := 0x9F }
  else if n < 0xF0 then .more { bits := n - 0xE0, missing := 1 }
  else if n = 0xF0 then .more { bits := 0, missing := 2, low := 0x90 }
  else if n < 0xF4 then .more { bits := n - 0xF0, missing := 2 }
  else if n = 0xF4 then .more { bits := 4, missing := 2, high := 0x8F }
  else .none

/-- Read bytes, given the character of which some bytes have been read. A byte that cannot go on
with that character starts a new one. -/
def decodeFrom : Option Pending → List UInt8 → List Char
  | none, [] => []
  | some _, [] => [replacement]
  | none, b :: rest =>
    match lead b with
    | .single c => c :: decodeFrom none rest
    | .more pending => decodeFrom (some pending) rest
    | .none => replacement :: decodeFrom none rest
  | some p, b :: rest =>
    if p.low ≤ b ∧ b ≤ p.high then
      let bits := p.bits * 64 + (b.toNat - 0x80)
      match p.missing with
      | 0 => Char.ofNat bits :: decodeFrom none rest
      | missing + 1 => decodeFrom (some { bits, missing }) rest
    else
      replacement ::
        match lead b with
        | .single c => c :: decodeFrom none rest
        | .more pending => decodeFrom (some pending) rest
        | .none => replacement :: decodeFrom none rest

/-- Read bytes as text. -/
def decode (bytes : List UInt8) : List Char := decodeFrom none bytes

/-- The bytes of a text. -/
def encode (text : List Char) : List UInt8 := text.flatMap String.utf8EncodeChar

end Listing.Text.Utf8
