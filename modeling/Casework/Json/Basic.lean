/-
  Casework.Json.Basic

  Documents: the values that the editor stores, that programs are made of and that requests carry.
  Objects keep their fields in the order of insertion, and whole numbers are told apart from
  binary ones, because both show in answers.
-/
import Casework.Entries
import Casework.Number.Basic

namespace Casework

/-- A document. -/
inductive Json where
  | null
  | bool (value : Bool)
  | number (value : Number)
  | text (value : String)
  | list (items : List Json)
  | object (fields : Entries Json)
  deriving Repr, Inhabited, BEq

/-- The fields of an object. -/
abbrev Fields := Entries Json

/-- The value of a field, null when it is absent. -/
def Entries.value (fields : Fields) (name : String) : Json := (fields.get? name).getD .null

namespace Json

/-- A whole number as a document. -/
def int (n : Int) : Json := .number (.whole n)

/-- A natural number as a document. -/
def nat (n : Nat) : Json := .number (.whole n)

/-- An optional text as a document. -/
def optText : Option String → Json
  | some s => .text s
  | none => .null

/-- A list of texts as a document. -/
def texts (items : List String) : Json := .list (items.map .text)

/-- An object with the given fields. -/
def obj (fields : List (String × Json)) : Json := .object ⟨fields⟩

/-- The text of a document that is one. -/
def text? : Json → Option String
  | .text s => some s
  | _ => none

/-- The fields of a document that is an object. -/
def object? : Json → Option Fields
  | .object fields => some fields
  | _ => none

/-- The items of a document that is a list. -/
def list? : Json → Option (List Json)
  | .list items => some items
  | _ => none

/-- The number of a document that is one. -/
def number? : Json → Option Number
  | .number n => some n
  | _ => none

/-- Whether the document is null. -/
def isNull : Json → Bool
  | .null => true
  | _ => false

/-- Whether the document is a text. -/
def isText (j : Json) : Bool := j.text?.isSome

/-- Whether the document is this text. -/
def isTextOf (j : Json) (s : String) : Bool := j.text? == some s

/-- Whether the document counts as given: null, false, zero and everything empty do not. -/
def truthy : Json → Bool
  | .null => false
  | .bool b => b
  | .number n => !n.isZero
  | .text s => s != ""
  | .list items => !items.isEmpty
  | .object fields => !fields.isEmpty

/-- The document if it counts as given, else the alternative. -/
def orElse (j alternative : Json) : Json := if j.truthy then j else alternative

/-- The field of an object; null for an absent field and for what is no object. -/
def field (j : Json) (name : String) : Json :=
  match j with
  | .object fields => fields.value name
  | _ => .null

end Json
end Casework
