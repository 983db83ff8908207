/-
  Casework.Store.Column

  What a column of the store keeps of a document that is given to it. Columns of text keep truth
  values and numbers as their text; a document with parts is refused by every column but those that
  keep documents. Columns of dates and of truth values refuse what is neither.
-/
import Casework.Failure
import Casework.Json.Key

namespace Casework.Column

/-- Binary numbers are kept with fifteen digits, without an exponent from `0.0001` up to below
`1e15`. -/
def layout : NumberLayout where
  leastPoint := -3
  greatestPoint := 15
  pointBeforeExponent := true
  signedZero := false
  infinite := "Inf"
  notANumber := ""

/-- The text that is kept of a binary number. -/
def binaryText (x : Binary64) : String := layout.write (Binary64.significant 15) x

/-- Whether a column has room for a whole number. -/
def hasRoom (n : Int) : Bool := -9223372036854775808 ≤ n && n ≤ 9223372036854775807

/-- What a column of text keeps; nothing for null. -/
def text : Json → Except StoreFault (Option String)
  | .null => .ok none
  | .text s => .ok (some s)
  | .bool b => .ok (some (if b then "1" else "0"))
  | .number (.whole n) => if hasRoom n then .ok (some (toString n)) else .error .overflow
  | .number (.binary .notANumber) => .ok none
  | .number (.binary x) => .ok (some (binaryText x))
  | .list _ | .object _ => .error .parameter

/-- The document that a column of text shows. -/
def shown : Json → Except StoreFault Json := fun j => Json.optText <$> text j

/-- What a column of whole numbers keeps, with the document that stands for null. A text that spells
a whole number is kept as the number, and so is a binary number that is whole; others stay. -/
def whole (default : Json) : Json → Except StoreFault Json
  | .null => .ok default
  | .bool b => .ok (.int (if b then 1 else 0))
  | .number (.whole n) => if hasRoom n then .ok (.int n) else .error .overflow
  | .number (.binary x) =>
    match x.truncate? with
    | some n => .ok (if hasRoom n && (Number.binary x).same (.whole n) then .int n
        else .number (.binary x))
    | none => .ok (.number (.binary x))
  | .text s =>
    match Text.readWhole s with
    | .ok n => .ok (if hasRoom n then .int n else .text s)
    | .error _ => .ok (.text s)
  | .list _ | .object _ => .error .parameter

/-- What a column of documents keeps: a new document that equals the kept one changes nothing. -/
def document (kept new : Json) : Json := if new.same kept then kept else new

/-- A value that must be there. -/
def required {α : Type} : Option α → Except StoreFault α
  | some value => .ok value
  | none => .error .constraint

/-- Refuses every document but null, which is the only one that is also a date. -/
def noDate : Json → Except StoreFault Unit
  | .null => .ok ()
  | _ => .error .column

/-- What a column of truth values keeps, with the value that stands for null. Zero and one are truth
values too. -/
def flag (default : Bool) : Json → Except StoreFault Bool
  | .null => .ok default
  | .bool b => .ok b
  | .number n =>
    if n.same (.whole 0) then .ok false
    else if n.same (.whole 1) then .ok true
    else .error .column
  | _ => .error .column

end Casework.Column
