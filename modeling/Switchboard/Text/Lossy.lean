/-!
# Bytes as text

`decodeLossy` reads bytes as UTF-8 and puts a replacement character in the place of each part that
is not: the longest beginning of a character that breaks off, or a single byte that begins none.
-/

namespace Switchboard

namespace Text

/-- The character that stands for what cannot be read. -/
def replacement : Char := '\uFFFD'

/-- A character that has been read in part: its value so far, how many bytes are to come, and
between which bounds the next one lies. -/
structure PartialChar where
  value : Nat
  left : Nat
  low : UInt8
  high : UInt8

/-- What a byte begins: a character, a part of one, or nothing. -/
def beginChar (b : UInt8) : Option (Char ⊕ PartialChar) :=
  let n := b.toNat
  if b < 0x80 then some (.inl (Char.ofNat n))
  else if b < 0xC2 then none
  else if b < 0xE0 then some (.inr ⟨n - 0xC0, 1, 0x80, 0xBF⟩)
  else if b = 0xE0 then some (.inr ⟨0, 2, 0xA0, 0xBF⟩)
  else if b = 0xED then some (.inr ⟨0xD, 2, 0x80, 0x9F⟩)
  else if b < 0xF0 then some (.inr ⟨n - 0xE0, 2, 0x80, 0xBF⟩)
  else if b = 0xF0 then some (.inr ⟨0, 3, 0x90, 0xBF⟩)
  else if b < 0xF4 then some (.inr ⟨n - 0xF0, 3, 0x80, 0xBF⟩)
  else if b = 0xF4 then some (.inr ⟨4, 3, 0x80, 0x8F⟩)
  else none

/-- Text that has been read, and the character that has been read in part. -/
structure LossyReader where
  text : String := ""
  current : Option PartialChar := none

namespace LossyReader

/-- Reads a byte that begins something new. -/
def first (reader : LossyReader) (b : UInt8) : LossyReader :=
  match beginChar b with
  | some (.inl c) => ⟨reader.text.push c, none⟩
  | some (.inr begun) => ⟨reader.text, some begun⟩
  | none => ⟨reader.text.push replacement, none⟩

/-- Reads a byte. -/
def next (reader : LossyReader) (b : UInt8) : LossyReader :=
  match reader.current with
  | none => reader.first b
  | some begun =>
      if begun.low ≤ b && b ≤ begun.high then
        let value := begun.value * 64 + (b.toNat - 0x80)
        if begun.left ≤ 1 then ⟨reader.text.push (Char.ofNat value), none⟩
        else ⟨reader.text, some ⟨value, begun.left - 1, 0x80, 0xBF⟩⟩
      else { reader with text := reader.text.push replacement }.first b

/-- The text at the end of the bytes. -/
def finish (reader : LossyReader) : String :=
  if reader.current.isSome then reader.text.push replacement else reader.text

end LossyReader

/-- The text that bytes stand for. -/
def decodeLossy (bytes : ByteArray) : String :=
  match String.fromUTF8? bytes with
  | some text => text
  | none => (bytes.foldl LossyReader.next {}).finish

end Text

end Switchboard
