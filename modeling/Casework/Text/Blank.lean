/-
  Casework.Text.Blank

  Sets of characters, blank characters and the trimming of texts. A set of characters is a list of
  code point ranges, as the character classes of the Unicode standard are given. The blank ones are
  Unicode's space separators together with the control characters that separate lines, records and
  fields; the zero-width space and the byte order mark are not blank.
-/

namespace Casework.Text

/-! ## Sets of characters -/

/-- A set of characters, as ranges of code points in ascending order. -/
abbrev CharRanges := List (Nat × Nat)

/-- Whether the character lies in one of the ranges. -/
def CharRanges.contains (ranges : CharRanges) (c : Char) : Bool :=
  ranges.any fun (first, last) => first ≤ c.toNat && c.toNat ≤ last

/-! ## Blank characters -/

/-- The ranges of blank characters. -/
def blankRanges : CharRanges := [
  (0x9, 0xd), (0x1c, 0x20), (0x85, 0x85), (0xa0, 0xa0), (0x1680, 0x1680), (0x2000, 0x200a),
  (0x2028, 0x2029), (0x202f, 0x202f), (0x205f, 0x205f), (0x3000, 0x3000)]

/-- Whether a character is blank. -/
def isBlank (c : Char) : Bool := blankRanges.contains c

/-- A list of characters without the blanks at its start. -/
def trimStart (cs : List Char) : List Char := cs.dropWhile isBlank

/-- A list of characters without the blanks at its end. -/
def trimEnd (cs : List Char) : List Char := (cs.reverse.dropWhile isBlank).reverse

/-- A list of characters without the blanks at either end. -/
def trimChars (cs : List Char) : List Char := trimEnd (trimStart cs)

/-- A text without the blanks at either end. -/
def trim (s : String) : String := String.ofList (trimChars s.toList)

/-- Whether a text holds blanks only, or nothing. -/
def isBlankText (s : String) : Bool := s.toList.all isBlank

end Casework.Text
