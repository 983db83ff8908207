/-
  Casework.Number.Basic

  Numbers as documents hold them: whole numbers of any size, and binary numbers. The two kinds
  stay apart, because a document shows which one was written, but they compare by value.
-/
import Casework.Number.Layout

namespace Casework

/-- A number of a document. -/
inductive Number where
  | whole (value : Int)
  | binary (value : Binary64)
  deriving DecidableEq, Repr

namespace Number

/-- The plain text of a number. -/
def plain : Number → String
  | .whole n => toString n
  | .binary x => x.plain

/-- Holds for zero of either kind. -/
def isZero : Number → Bool
  | .whole n => n == 0
  | .binary x => x.isZero

/-- The number that is greater by one, rounded if it is a binary one. -/
def successor : Number → Number
  | .whole n => .whole (n + 1)
  | .binary x =>
    match x.fraction? with
    | some (num, den) =>
      .binary (.nearest (decide (num + den < 0)) (num + den).natAbs den)
    | none => .binary x

/-! ## Comparison by value -/

/-- Where a number lies: below or above all finite ones, at a fraction, or nowhere. -/
inductive Position where
  | lowest
  | at (num : Int) (den : Nat)
  | highest
  | nowhere

/-- The position of a number among all numbers. -/
def position : Number → Position
  | .whole n => .at n 1
  | .binary x =>
    match x.fraction? with
    | some (num, den) => .at num den
    | none =>
      match x with
      | .infinite true => .lowest
      | .infinite false => .highest
      | _ => .nowhere

/-- Whether the first number is less than the second, exactly. -/
def lt (a b : Number) : Bool :=
  match a.position, b.position with
  | .nowhere, _ | _, .nowhere => false
  | .lowest, .lowest | _, .lowest | .highest, _ => false
  | .lowest, _ | _, .highest => true
  | .at n d, .at m e => decide (n * e < m * d)

/-- Whether two numbers have the same value, exactly. A number that is nowhere equals none. -/
def same (a b : Number) : Bool :=
  match a.position, b.position with
  | .lowest, .lowest | .highest, .highest => true
  | .at n d, .at m e => decide (n * e = m * d)
  | _, _ => false

/-- Holds for every number but the one that is none. -/
def isComparable (n : Number) : Bool := n.same n

/-- Whether a set that holds the second number holds the first one: they have the same value, or
both are the number that is none. -/
def isOne (a b : Number) : Bool := a.same b || (!a.isComparable && !b.isComparable)

end Number
end Casework
