/-
  Casework.Text.Numeral

  Numbers written as text: a sign, decimal digits of any script with single underscores between
  them, and for binary numbers a fraction, an exponent or one of the words for infinity and for
  no number. Blanks around the numeral are passed over. Each script has its ten digits in a row, so
  the zeros say everything about digits.
-/
import Casework.Number.Basic
import Casework.Text.Blank

namespace Casework.Text

/-! ## Digits -/

/-- The code points of the zeros, as of Unicode 14. -/
def digitZeros : List Nat := [
  0x30, 0x660, 0x6f0, 0x7c0, 0x966, 0x9e6, 0xa66, 0xae6, 0xb66, 0xbe6, 0xc66, 0xce6, 0xd66,
  0xde6, 0xe50, 0xed0, 0xf20, 0x1040, 0x1090, 0x17e0, 0x1810, 0x1946, 0x19d0, 0x1a80, 0x1a90,
  0x1b50, 0x1bb0, 0x1c40, 0x1c50, 0xa620, 0xa8d0, 0xa900, 0xa9d0, 0xa9f0, 0xaa50, 0xabf0, 0xff10,
  0x104a0, 0x10d30, 0x11066, 0x110f0, 0x11136, 0x111d0, 0x112f0, 0x11450, 0x114d0, 0x11650,
  0x116c0, 0x11730, 0x118e0, 0x11950, 0x11c50, 0x11d50, 0x11da0, 0x16a60, 0x16ac0, 0x16b50,
  0x1d7ce, 0x1d7d8, 0x1d7e2, 0x1d7ec, 0x1d7f6, 0x1e140, 0x1e2f0, 0x1e950, 0x1fbf0]

/-- The value of a decimal digit of any script. -/
def digitValue? (c : Char) : Option Nat :=
  (digitZeros.find? fun z => z ≤ c.toNat && c.toNat ≤ z + 9).map (c.toNat - ·)

/-! ## Preparing the characters -/

/-- The blanks that may surround a numeral of plain characters. -/
def isPlainBlank (c : Char) : Bool := c == ' ' || (9 ≤ c.toNat && c.toNat ≤ 13)

/-- Digits and blanks of any script as plain ones. Plain characters stay as they are, so that the
rarer control characters are no blanks here. -/
def plainNumeral (cs : List Char) : List Char :=
  cs.map fun c =>
    if c.toNat < 127 then c
    else if isBlank c then ' '
    else match digitValue? c with
      | some d => Char.ofNat ('0'.toNat + d)
      | none => c

/-- The characters without surrounding plain blanks. -/
def trimNumeral (cs : List Char) : List Char :=
  ((cs.dropWhile isPlainBlank).reverse.dropWhile isPlainBlank).reverse

/-- Splits off a sign; the flag tells a minus. -/
def takeSign : List Char → Bool × List Char
  | '-' :: rest => (true, rest)
  | '+' :: rest => (false, rest)
  | cs => (false, cs)

/-- The longest start of digits and underscores, and the rest. -/
def takeDigitRun (cs : List Char) : List Char × List Char :=
  (cs.takeWhile fun c => c.isDigit || c == '_', cs.dropWhile fun c => c.isDigit || c == '_')

/-- Whether every underscore stands between two digits, `afterDigit` telling what came before. -/
def underscoresSeparate (afterDigit : Bool) : List Char → Bool
  | [] => afterDigit
  | c :: rest =>
    if c == '_' then afterDigit && underscoresSeparate false rest
    else underscoresSeparate true rest

/-- The number that the digits among the characters spell. -/
def digitsValue (cs : List Char) : Nat :=
  cs.foldl (fun n c => if c == '_' then n else 10 * n + (c.toNat - '0'.toNat)) 0

/-! ## Whole numbers -/

/-- The most digits a numeral of a whole number may have. -/
def maxNumeralDigits : Nat := 4300

/-- Why a text is not the numeral of a whole number. -/
inductive NumeralError where
  | malformed
  | tooLong (digits : Nat)
  deriving DecidableEq, Repr

/-- The whole number that the text spells. The length is checked before the form, so an overlong
run of digits is refused for its length whatever follows it. -/
def readWhole (s : String) : Except NumeralError Int :=
  let (negative, cs) := takeSign (trimNumeral (plainNumeral s.toList))
  let (run, rest) := takeDigitRun cs
  let count := (run.filter (· != '_')).length
  if run.getLast? == some '_' || run.head? == some '_' || hasDoubleUnderscore run then
    .error .malformed
  else if count > maxNumeralDigits then .error (.tooLong count)
  else if run.isEmpty || !rest.isEmpty then .error .malformed
  else .ok (if negative then -(digitsValue run : Int) else digitsValue run)
where
  /-- Whether two underscores follow each other. -/
  hasDoubleUnderscore : List Char → Bool
    | '_' :: '_' :: _ => true
    | _ :: rest => hasDoubleUnderscore rest
    | [] => false

/-! ## Binary numbers -/

/-- Whether the characters spell the word, in any case. -/
def spells (cs : List Char) (word : String) : Bool := cs.map Char.toLower == word.toList

/-- The exponent at the end of a numeral; absent when the characters are no exponent. -/
def exponent? : List Char → Option Int
  | [] => some 0
  | c :: rest =>
    if c == 'e' || c == 'E' then
      let (negative, digits) := takeSign rest
      if digits.all (fun c => c.isDigit || c == '_') && underscoresSeparate false digits then
        some (if negative then -(digitsValue digits : Int) else digitsValue digits)
      else none
    else none

/-- A run of digits that may be empty, as its value and count; absent when an underscore does not
stand between two digits. -/
def optionalDigits? (run : List Char) : Option (Nat × Nat) :=
  if run.isEmpty then some (0, 0)
  else if underscoresSeparate false run then
    some (digitsValue run, (run.filter (· != '_')).length)
  else none

/-- The binary number that unsigned plain characters spell. -/
def unsignedBinary? (negative : Bool) (cs : List Char) : Option Binary64 :=
  if spells cs "inf" || spells cs "infinity" then some (.infinite negative)
  else if spells cs "nan" then some .notANumber
  else do
    let (wholeRun, rest) := takeDigitRun cs
    let (fractionRun, rest) := match rest with
      | '.' :: rest => takeDigitRun rest
      | rest => ([], rest)
    let (whole, wholeCount) ← optionalDigits? wholeRun
    let (fraction, fractionCount) ← optionalDigits? fractionRun
    let exponent ← exponent? rest
    if wholeCount + fractionCount == 0 then none
    else some (Binary64.ofDecimal negative (whole * Nat.pow 10 fractionCount + fraction)
      (exponent - fractionCount))

/-- The binary number that the text spells, rounded to the nearest. -/
def readBinary? (s : String) : Option Binary64 :=
  let (negative, cs) := takeSign (trimNumeral (plainNumeral s.toList))
  unsignedBinary? negative cs

end Casework.Text
