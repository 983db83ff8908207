/-
  Casework.Text.Quoted

  Texts in quotes, as they appear inside the plain text of a list or an object. The quote is a
  single one unless the text holds single quotes and no double ones; hidden characters are
  escaped by their code points, in two, four or eight hexadecimal digits.
-/
import Casework.Text.Printable

namespace Casework.Text

/-- The last `width` hexadecimal digits of a number, with leading zeros. -/
def hexDigits (width n : Nat) : List Char :=
  let digits := Nat.toDigits 16 n
  List.replicate (width - digits.length) '0' ++ digits

/-- The escape of a hidden character, the shortest that has room for its code point. -/
def escapeHidden (c : Char) : List Char :=
  let n := c.toNat
  if n < 0x100 then '\\' :: 'x' :: hexDigits 2 n
  else if n < 0x10000 then '\\' :: 'u' :: hexDigits 4 n
  else '\\' :: 'U' :: hexDigits 8 n

/-- A character as it is written between quotes of the given kind. -/
def quoteChar (mark c : Char) : List Char :=
  if c == mark || c == '\\' then ['\\', c]
  else if c == '\n' then ['\\', 'n']
  else if c == '\r' then ['\\', 'r']
  else if c == '\t' then ['\\', 't']
  else if isPrintable c then [c]
  else escapeHidden c

/-- The quote that surrounds the characters. -/
def quoteMark (cs : List Char) : Char :=
  if cs.contains '\'' && !cs.contains '"' then '"' else '\''

/-- The characters in quotes. -/
def quotedChars (cs : List Char) : List Char :=
  let mark := quoteMark cs
  mark :: cs.flatMap (quoteChar mark) ++ [mark]

/-- The text in quotes. -/
def quoted (s : String) : String := String.ofList (quotedChars s.toList)

end Casework.Text
