/-
  Casework.Json.Reader

  Reading documents. Of two fields of one name the later value wins, in the place of the earlier.
  A number with a fraction or an exponent is a binary one, any other a whole one.
-/
import Casework.Json.Basic

namespace Casework.Json

/-- Whether a character may stand between the parts of a document. -/
def isSpacing (c : Char) : Bool := c == ' ' || c == '\t' || c == '\n' || c == '\r'

/-- The characters from the first that is no spacing. -/
def skipSpacing (cs : List Char) : List Char := cs.dropWhile isSpacing

/-! ## Texts -/

/-- The value of a hexadecimal digit. -/
def hexValue? (c : Char) : Option Nat :=
  if c.isDigit then some (c.toNat - '0'.toNat)
  else if 'a' ≤ c && c ≤ 'f' then some (c.toNat - 'a'.toNat + 10)
  else if 'A' ≤ c && c ≤ 'F' then some (c.toNat - 'A'.toNat + 10)
  else none

/-- The code unit of four hexadecimal digits. -/
def codeUnit? : List Char → Option (Nat × List Char)
  | a :: b :: c :: d :: rest => do
    let a ← hexValue? a
    let b ← hexValue? b
    let c ← hexValue? c
    let d ← hexValue? d
    some (((a * 16 + b) * 16 + c) * 16 + d, rest)
  | _ => none

/-- The character after a backslash, for the escapes of one letter. -/
def shortEscape? (c : Char) : Option Char :=
  match c with
  | '"' | '\\' | '/' => some c
  | 'b' => some (Char.ofNat 8)
  | 'f' => some (Char.ofNat 12)
  | 'n' => some '\n'
  | 'r' => some '\r'
  | 't' => some '\t'
  | _ => none

/-- The character of an escape by code units: one unit, or the two of a surrogate pair. -/
def escapedChar? (cs : List Char) : Option (Char × List Char) := do
  let (unit, rest) ← codeUnit? cs
  if 0xD800 ≤ unit && unit < 0xDC00 then
    match rest with
    | '\\' :: 'u' :: more =>
      let (low, rest) ← codeUnit? more
      if 0xDC00 ≤ low && low < 0xE000 then
        some (Char.ofNat (0x10000 + (unit - 0xD800) * 0x400 + (low - 0xDC00)), rest)
      else none
    | _ => none
  else some (Char.ofNat unit, rest)

/-- The characters up to the closing quote, in reverse, and what follows it. -/
def readChars? : Nat → List Char → List Char → Option (List Char × List Char)
  | 0, _, _ => none
  | fuel + 1, done, cs =>
    match cs with
    | [] => none
    | '"' :: rest => some (done, rest)
    | '\\' :: 'u' :: rest => do
      let (c, rest) ← escapedChar? rest
      readChars? fuel (c :: done) rest
    | '\\' :: c :: rest => do
      let c ← shortEscape? c
      readChars? fuel (c :: done) rest
    | c :: rest => readChars? fuel (c :: done) rest

/-- The text that starts after an opening quote. -/
def readText? (cs : List Char) : Option (String × List Char) :=
  (readChars? (cs.length + 1) [] cs).map fun (done, rest) => (String.ofList done.reverse, rest)

/-! ## Numbers -/

/-- The longest start of digits, and the rest. -/
def takeDigits (cs : List Char) : List Char × List Char :=
  (cs.takeWhile Char.isDigit, cs.dropWhile Char.isDigit)

/-- The number that digits spell. -/
def digitsValue (cs : List Char) : Nat :=
  cs.foldl (fun n c => 10 * n + (c.toNat - '0'.toNat)) 0

/-- The exponent at the start of the characters, if there is one. -/
def readExponent : List Char → Option Int × List Char
  | [] => (none, [])
  | c :: rest =>
    if c == 'e' || c == 'E' then
      let (negative, body) := match rest with
        | '-' :: body => (true, body)
        | '+' :: body => (false, body)
        | body => (false, body)
      let (digits, after) := takeDigits body
      if digits.isEmpty then (none, c :: rest)
      else (some (if negative then -(digitsValue digits : Int) else digitsValue digits), after)
    else (none, c :: rest)

/-- The number at the start of the characters, without its sign. -/
def readUnsigned? (negative : Bool) (cs : List Char) : Option (Json × List Char) :=
  let (whole, rest) := takeDigits cs
  if whole.isEmpty then none
  else
    let (fraction, rest) := match rest with
      | '.' :: more =>
        let (digits, after) := takeDigits more
        if digits.isEmpty then ([], rest) else (digits, after)
      | _ => ([], rest)
    let (exponent, rest) := readExponent rest
    if fraction.isEmpty && exponent.isNone then
      let n : Int := digitsValue whole
      some (.number (.whole (if negative then -n else n)), rest)
    else
      let digits := digitsValue (whole ++ fraction)
      some (.number (.binary (Binary64.ofDecimal negative digits
        (exponent.getD 0 - fraction.length))), rest)

/-- The word at the start of the characters, and what follows it. -/
def readWord? (word : String) (cs : List Char) : Option (List Char) :=
  if word.toList.isPrefixOf cs then some (cs.drop word.length) else none

/-- A null, a truth value or a number. -/
def readAtom? (cs : List Char) : Option (Json × List Char) :=
  match cs with
  | 'n' :: _ => (readWord? "null" cs).map (.null, ·)
  | 't' :: _ => (readWord? "true" cs).map (.bool true, ·)
  | 'f' :: _ => (readWord? "false" cs).map (.bool false, ·)
  | 'N' :: _ => (readWord? "NaN" cs).map (.number (.binary .notANumber), ·)
  | 'I' :: _ => (readWord? "Infinity" cs).map (.number (.binary (.infinite false)), ·)
  | '-' :: 'I' :: _ => (readWord? "-Infinity" cs).map (.number (.binary (.infinite true)), ·)
  | '-' :: rest => readUnsigned? true rest
  | _ => readUnsigned? false cs

/-! ## Documents -/

mutual

/-- The document at the start of the characters, nested at most `fuel` deep. -/
def readValue? : Nat → List Char → Option (Json × List Char)
  | 0, _ => none
  | fuel + 1, cs =>
    match skipSpacing cs with
    | '"' :: rest => (readText? rest).map fun (s, rest) => (.text s, rest)
    | '[' :: rest =>
      match skipSpacing rest with
      | ']' :: rest => some (.list [], rest)
      | rest => readItems? fuel [] rest
    | '\x7b' :: rest =>
      match skipSpacing rest with
      | '\x7d' :: rest => some (.object .empty, rest)
      | rest => readFields? fuel .empty rest
    | cs => readAtom? cs

/-- The items of a list up to its closing bracket; `done` holds the earlier ones in reverse. -/
def readItems? : Nat → List Json → List Char → Option (Json × List Char)
  | 0, _, _ => none
  | fuel + 1, done, cs => do
    let (item, rest) ← readValue? fuel cs
    match skipSpacing rest with
    | ',' :: rest => readItems? fuel (item :: done) rest
    | ']' :: rest => some (.list (item :: done).reverse, rest)
    | _ => none

/-- The fields of an object up to its closing brace. -/
def readFields? : Nat → Fields → List Char → Option (Json × List Char)
  | 0, _, _ => none
  | fuel + 1, done, cs =>
    match skipSpacing cs with
    | '"' :: rest => do
      let (name, rest) ← readText? rest
      match skipSpacing rest with
      | ':' :: rest => do
        let (value, rest) ← readValue? fuel rest
        let done := done.put name value
        match skipSpacing rest with
        | ',' :: rest => readFields? fuel done rest
        | '\x7d' :: rest => some (.object done, rest)
        | _ => none
      | _ => none
    | _ => none

end

/-- The document that the whole text is. -/
def read? (s : String) : Option Json :=
  let cs := s.toList
  match readValue? (2 * cs.length + 2) cs with
  | some (j, rest) => if (skipSpacing rest).isEmpty then some j else none
  | none => none

end Casework.Json
