/-
  Casework.Text.Percent

  Percent-decoding: two hexadecimal digits after a percent sign stand for a byte, and the bytes are
  read as UTF-8. Bytes that begin no character are read as the replacement character; so are bytes
  that begin one which is then not completed, all of them together.
-/

namespace Casework.Text

/-- The value of a hexadecimal digit. -/
def hexValue? (c : Char) : Option Nat :=
  if '0' ≤ c && c ≤ '9' then some (c.toNat - '0'.toNat)
  else if 'a' ≤ c && c ≤ 'f' then some (c.toNat - 'a'.toNat + 10)
  else if 'A' ≤ c && c ≤ 'F' then some (c.toNat - 'A'.toNat + 10)
  else none

/-- The bytes of a character. -/
def charBytes (c : Char) : List UInt8 := (String.singleton c).toUTF8.toList

/-- The bytes that characters stand for. A percent sign without two digits stands for itself. -/
def percentBytes : List Char → List UInt8
  | '%' :: a :: b :: rest =>
    match hexValue? a, hexValue? b with
    | some high, some low => UInt8.ofNat (16 * high + low) :: percentBytes rest
    | _, _ => charBytes '%' ++ percentBytes (a :: b :: rest)
  | c :: rest => charBytes c ++ percentBytes rest
  | [] => []
termination_by cs => cs.length

/-- The character that stands for bytes that spell none. -/
def replacement : Char := Char.ofNat 0xFFFD

/-- How a character is spelled that begins with a byte: the bits of the first byte, and the range of
each further byte. -/
def spelling? (b : Nat) : Option (Nat × List (Nat × Nat)) :=
  let any := (0x80, 0xBF)
  if b < 0x80 then some (b, [])
  else if 0xC2 ≤ b && b ≤ 0xDF then some (b % 0x20, [any])
  else if b == 0xE0 then some (b % 0x10, [(0xA0, 0xBF), any])
  else if b == 0xED then some (b % 0x10, [(0x80, 0x9F), any])
  else if 0xE1 ≤ b && b ≤ 0xEF then some (b % 0x10, [any, any])
  else if b == 0xF0 then some (b % 0x08, [(0x90, 0xBF), any, any])
  else if 0xF1 ≤ b && b ≤ 0xF3 then some (b % 0x08, [any, any, any])
  else if b == 0xF4 then some (b % 0x08, [(0x80, 0x8F), any, any])
  else none

/-- Reads further bytes in their ranges: the character, or the replacement, and how many bytes were
read. -/
def furtherBytes (bits read : Nat) : List (Nat × Nat) → List Nat → Char × Nat
  | [], _ => (Char.ofNat bits, read)
  | (low, high) :: ranges, b :: rest =>
    if low ≤ b && b ≤ high then furtherBytes (64 * bits + b % 64) (read + 1) ranges rest
    else (replacement, read)
  | _ :: _, [] => (replacement, read)

/-- Reads bytes as UTF-8, at most `left` characters. -/
def decodeBytes : Nat → List Nat → List Char
  | 0, _ | _, [] => []
  | left + 1, b :: rest =>
    match spelling? b with
    | none => replacement :: decodeBytes left rest
    | some (bits, ranges) =>
      let (c, read) := furtherBytes bits 0 ranges rest
      c :: decodeBytes left (rest.drop read)

/-- The characters that percent-encoded characters stand for. -/
def percentDecode (cs : List Char) : List Char :=
  let bytes := (percentBytes cs).map UInt8.toNat
  decodeBytes bytes.length bytes

end Casework.Text
