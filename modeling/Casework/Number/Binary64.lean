/-
  Casework.Number.Binary64

  Binary floating-point numbers of 64 bits, kept as the exact value they denote: a sign, a
  significand below `2 ^ 53` and a binary exponent. Everything is arithmetic on `Nat` and `Int`,
  so that comparisons with integers of any size are exact and statements about values need no
  theory of machine floats.
-/

namespace Casework

/-- A 64-bit binary number: `finite n m e` is `m * 2 ^ e`, negated when `n` holds. -/
inductive Binary64 where
  | finite (negative : Bool) (significand : Nat) (exponent : Int)
  | infinite (negative : Bool)
  | notANumber
  deriving DecidableEq, Repr

namespace Binary64

/-- The number of significand bits, the leading one included. -/
def precision : Nat := 53

/-- The exponent of the least significand bit of the smallest numbers. -/
def minExponent : Int := -1074

/-- The exponent of the least significand bit of the largest numbers. -/
def maxExponent : Int := 971

/-- Zero, with the given sign. -/
def zero (negative : Bool) : Binary64 := .finite negative 0 minExponent

/-! ## Rounding a quotient -/

/-- The whole number nearest to `num / den`; of two equally near ones, the even one. -/
def roundHalfEven (num den : Nat) : Nat :=
  let quotient := num / den
  let rest := num % den
  if 2 * rest > den || (2 * rest == den && quotient % 2 == 1) then quotient + 1 else quotient

/-- The fraction `num / (den * 2 ^ e)` as a numerator and a denominator. -/
def scaleDown (num den : Nat) (e : Int) : Nat × Nat :=
  if e ≥ 0 then (num, den * Nat.pow 2 e.toNat) else (num * Nat.pow 2 (-e).toNat, den)

/-- The exponent at which the quotient `num / den` has `precision` bits before the point, but
never less than `minExponent`. -/
def exponentOf (num den : Nat) : Int :=
  let guess : Int := (Nat.log2 num : Int) - Nat.log2 den - precision
  let (n, d) := scaleDown num den guess
  max minExponent (if n ≥ d * Nat.pow 2 precision then guess + 1 else guess)

/-- The number nearest to the positive quotient `num / den`, ties to the even significand, and
infinite when even the largest number is too small. -/
def nearest (negative : Bool) (num den : Nat) : Binary64 :=
  if num == 0 then zero negative
  else
    let e := exponentOf num den
    let (n, d) := scaleDown num den e
    let m := roundHalfEven n d
    let (m, e) := if m == Nat.pow 2 precision then (Nat.pow 2 (precision - 1), e + 1) else (m, e)
    if e > maxExponent then .infinite negative else .finite negative m e

/-- How many decimal digits the number has. -/
def digitCount (n : Nat) : Nat := (Nat.toDigits 10 n).length

/-- The number nearest to `digits * 10 ^ exponent`. Exponents far outside the range are answered
without building the power of ten. -/
def ofDecimal (negative : Bool) (digits : Nat) (exponent : Int) : Binary64 :=
  if digits == 0 then zero negative
  else
    let magnitude := exponent + digitCount digits
    if magnitude > 400 then .infinite negative
    else if magnitude < -400 then zero negative
    else if exponent ≥ 0 then nearest negative (digits * Nat.pow 10 exponent.toNat) 1
    else nearest negative digits (Nat.pow 10 (-exponent).toNat)

/-! ## Exact values -/

/-- A finite number as a fraction of an integer and a power of two. -/
def fraction? : Binary64 → Option (Int × Nat)
  | .finite negative m e =>
    let signed : Int := if negative then -(m : Int) else m
    some (if e ≥ 0 then (signed * Nat.pow 2 e.toNat, 1) else (signed, Nat.pow 2 (-e).toNat))
  | .infinite _ | .notANumber => none

/-- The whole part, cut toward zero; absent for the numbers that are not finite. -/
def truncate? (x : Binary64) : Option Int :=
  x.fraction?.map fun (num, den) => Int.tdiv num den

/-- Holds for zero of either sign. -/
def isZero : Binary64 → Bool
  | .finite _ m _ => m == 0
  | .infinite _ | .notANumber => false

end Binary64
end Casework
