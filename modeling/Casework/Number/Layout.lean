/-
  Casework.Number.Layout

  How the digits of a number are laid out as text. The choices of one format are the fields of
  one record, and the same function serves every format of the program.
-/
import Casework.Number.Shortest

namespace Casework

/-- The choices a number format makes. -/
structure NumberLayout where
  /-- The least decimal point position that is still written without an exponent. -/
  leastPoint : Int
  /-- The greatest decimal point position that is still written without an exponent. -/
  greatestPoint : Int
  /-- Whether a lone digit before an exponent gets a `.0`. -/
  pointBeforeExponent : Bool
  /-- Whether zero keeps a minus sign. -/
  signedZero : Bool
  /-- The text of the infinite number, without its sign. -/
  infinite : String
  /-- The text of the number that is not one. -/
  notANumber : String

namespace NumberLayout

/-- At least two digits of an exponent, after its sign. -/
def exponentText (e : Int) : String :=
  let digits := Nat.repr e.natAbs
  (if e < 0 then "e-" else "e+") ++ (if digits.length < 2 then "0" ++ digits else digits)

/-- Digits with the point written in its place. -/
def positional (digits : List Char) (point : Int) : String :=
  if point ≤ 0 then
    "0." ++ String.ofList (List.replicate (-point).toNat '0' ++ digits)
  else
    let n := point.toNat
    let whole := digits.take n ++ List.replicate (n - digits.length) '0'
    let rest := digits.drop n
    String.ofList whole ++ "." ++ (if rest.isEmpty then "0" else String.ofList rest)

/-- Digits with the point after the first one and an exponent. -/
def scientific (layout : NumberLayout) (digits : List Char) (point : Int) : String :=
  let rest := digits.drop 1
  let mantissa :=
    String.ofList (digits.take 1) ++
      (if rest.isEmpty then (if layout.pointBeforeExponent then ".0" else "")
       else "." ++ String.ofList rest)
  mantissa ++ exponentText (point - 1)

/-- The text of a positive decimal. -/
def decimal (layout : NumberLayout) (d : Decimal) : String :=
  if layout.leastPoint ≤ d.point && d.point ≤ layout.greatestPoint then
    positional d.digitChars d.point
  else layout.scientific d.digitChars d.point

/-- The text of a binary number whose digits `digits` chooses. -/
def write (layout : NumberLayout) (digits : Nat → Int → Decimal) : Binary64 → String
  | .finite negative m e =>
    if m == 0 then (if negative && layout.signedZero then "-0.0" else "0.0")
    else (if negative then "-" else "") ++ layout.decimal (digits m e)
  | .infinite negative => (if negative then "-" else "") ++ layout.infinite
  | .notANumber => layout.notANumber

end NumberLayout

namespace Binary64

/-- Plain numbers are written without an exponent from `0.0001` up to below `1e16`. -/
def plainLayout : NumberLayout where
  leastPoint := -3
  greatestPoint := 16
  pointBeforeExponent := false
  signedZero := true
  infinite := "inf"
  notANumber := "nan"

/-- The shortest text that reads back as the number. -/
def plain (x : Binary64) : String := plainLayout.write shortest x

end Binary64
end Casework
