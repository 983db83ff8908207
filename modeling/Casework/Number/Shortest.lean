/-
  Casework.Number.Shortest

  The decimal digits that stand for a binary number: the fewest that read back as the same
  number, or a fixed count of them. A decimal is a run of digits and the power of ten of the
  last one, so that where the point goes is left to the layout.
-/
import Casework.Number.Binary64

namespace Casework

/-- The positive decimal `digits * 10 ^ exponent`. -/
structure Decimal where
  digits : Nat
  exponent : Int
  deriving DecidableEq, Repr

namespace Decimal

/-- Drops final zeros, at most `fuel` of them, keeping the value. -/
def dropZeros : Nat → Decimal → Decimal
  | 0, d => d
  | fuel + 1, d =>
    if d.digits % 10 == 0 && d.digits != 0 then dropZeros fuel ⟨d.digits / 10, d.exponent + 1⟩
    else d

/-- The same value without final zeros. -/
def normal (d : Decimal) : Decimal := dropZeros (Binary64.digitCount d.digits) d

/-- The digits as characters, without a leading zero. -/
def digitChars (d : Decimal) : List Char := Nat.toDigits 10 d.digits

/-- The power of ten just above the value: the value is `0.ddd… * 10 ^ point`. -/
def point (d : Decimal) : Int := d.exponent + Binary64.digitCount d.digits

end Decimal

namespace Binary64

/-! ## The interval that reads back -/

/-- The quotient `a / b` compared with the grid point `k * 10 ^ e`: scales both to naturals. -/
def onGrid (a b k : Nat) (e : Int) : Nat × Nat :=
  if e ≥ 0 then (a, k * Nat.pow 10 e.toNat * b) else (a * Nat.pow 10 (-e).toNat, k * b)

/-- The reals that round to `m * 2 ^ e`, as numerators over the common denominator `den`: the
lower end, the value and the upper end. The ends belong to the interval when `m` is even. -/
structure Interval where
  lower : Nat
  value : Nat
  upper : Nat
  den : Nat
  closed : Bool

/-- The interval of the positive number `m * 2 ^ e`. Below a power of two the numbers lie twice
as close, so the lower end is nearer there. -/
def interval (m : Nat) (e : Int) : Interval :=
  let scale : Nat := if e ≥ 0 then Nat.pow 2 e.toNat else 1
  let den : Nat := if e ≥ 0 then 1 else Nat.pow 2 (-e).toNat
  let narrow := m == Nat.pow 2 (precision - 1) && decide (e > minExponent)
  { lower := (4 * m - if narrow then 1 else 2) * scale
    value := 4 * m * scale
    upper := (4 * m + 2) * scale
    den := 4 * den
    closed := m % 2 == 0 }

/-- Whether the grid point `k * 10 ^ e` lies in the interval. -/
def Interval.contains (i : Interval) (k : Nat) (e : Int) : Bool :=
  let (lower, low) := onGrid i.lower i.den k e
  let (upper, high) := onGrid i.upper i.den k e
  if i.closed then decide (lower ≤ low) && decide (high ≤ upper)
  else decide (lower < low) && decide (high < upper)

/-- The value's lower neighbour on the grid of multiples of `10 ^ e`. -/
def Interval.below (i : Interval) (e : Int) : Nat :=
  if e ≥ 0 then i.value / (i.den * Nat.pow 10 e.toNat) else i.value * Nat.pow 10 (-e).toNat / i.den

/-- Whether the value is nearer to `k` than to `k + 1` on the grid; a tie goes to the even one. -/
def Interval.nearerBelow (i : Interval) (k : Nat) (e : Int) : Bool :=
  let (twice, middle) := onGrid (2 * i.value) i.den (2 * k + 1) e
  decide (twice < middle) || (twice == middle && k % 2 == 0)

/-- The decimal of the grid `10 ^ e` that reads back as the value, the nearer one of two. -/
def Interval.pick? (i : Interval) (e : Int) : Option Decimal :=
  let k := i.below e
  let low := k != 0 && i.contains k e
  let high := i.contains (k + 1) e
  if low && (!high || i.nearerBelow k e) then some ⟨k, e⟩
  else if high then some ⟨k + 1, e⟩
  else none

/-- Tries ever finer grids, starting at `10 ^ e`. -/
def Interval.search (i : Interval) : Nat → Int → Decimal
  | 0, e => ⟨i.below e, e⟩
  | fuel + 1, e =>
    match i.pick? e with
    | some d => d
    | none => i.search fuel (e - 1)

/-- The power of ten at or above every positive number `a / b`. -/
def coarsestGrid (a b : Nat) : Int := (digitCount a : Int) - digitCount b + 1

/-- The fewest digits that read back as the positive number `m * 2 ^ e`, and of those the nearest
to it. Nineteen grids suffice, since seventeen digits tell all numbers apart. -/
def shortest (m : Nat) (e : Int) : Decimal :=
  let i := interval m e
  (i.search 20 (coarsestGrid i.value i.den)).normal

/-! ## A fixed count of digits -/

/-- The positive number `m * 2 ^ e` rounded to `count` significant digits, halves upward, without
final zeros. -/
def significant (count m : Nat) (e : Int) : Decimal :=
  let i := interval m e
  let start := coarsestGrid i.value i.den
  let lead := if i.below start != 0 then start + 1 else if i.below (start - 1) != 0 then start
    else start - 1
  let grid := lead - count
  let (twice, _) := onGrid (2 * i.value) i.den 0 grid
  let unit := if grid ≥ 0 then i.den * Nat.pow 10 grid.toNat else i.den
  Decimal.normal ⟨(twice / unit + 1) / 2, grid⟩

end Binary64
end Casework
