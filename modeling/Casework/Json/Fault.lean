/-
  Casework.Json.Fault

  What goes wrong when a document is used as something it is not: an object is expected and a
  list is there, a number is expected and the text spells none. Each fault is a cause with its
  own text, since the text is recorded with a failed run.
-/
import Casework.Json.Plain
import Casework.Text.Numeral

namespace Casework

/-- The kinds of documents. -/
inductive Shape where
  | null
  | bool
  | whole
  | binary
  | text
  | list
  | object
  deriving DecidableEq, Repr

/-- The word for a kind of document in the text of a fault. -/
def Shape.word : Shape → String
  | .null => "NoneType"
  | .bool => "bool"
  | .whole => "int"
  | .binary => "float"
  | .text => "str"
  | .list => "list"
  | .object => "dict"

/-- The kind of a document. -/
def Json.shape : Json → Shape
  | .null => .null
  | .bool _ => .bool
  | .number (.whole _) => .whole
  | .number (.binary _) => .binary
  | .text _ => .text
  | .list _ => .list
  | .object _ => .object

/-- Why a document cannot be used as asked. -/
inductive Fault where
  /-- An object lacks a field that must be there. -/
  | missingField (name : String)
  /-- The kind of document has no such operation. -/
  | noOperation (shape : Shape) (operation : String)
  /-- The document has no items to go through. -/
  | noItems (shape : Shape)
  /-- The document cannot be asked whether it holds a value. -/
  | noMembers (shape : Shape)
  /-- The document has no fields that could be copied. -/
  | noMapping (shape : Shape)
  /-- A list has no item at a position. -/
  | missingItem
  /-- The document has no parts to be looked up. -/
  | noParts (shape : Shape)
  /-- A text is needed. -/
  | noText (shape : Shape)
  /-- A document with parts cannot be a key. -/
  | noKey (shape : Shape)
  /-- A number, or a text that spells one, is needed. -/
  | noNumeral (shape : Shape)
  /-- The text spells no whole number. -/
  | malformedNumeral (text : String)
  /-- The text spells a whole number of too many digits. -/
  | overlongNumeral (digits : Nat)
  /-- The number that is not one has no whole part. -/
  | undefinedNumber
  /-- The infinite number has no whole part. -/
  | infiniteNumber
  /-- A count of days is beyond every machine word. -/
  | countTooLarge
  /-- A count of days is beyond the longest duration. -/
  | durationTooLong (days : Int)
  /-- A date is beyond the calendar. -/
  | dateOutOfRange
  /-- An item of a list is no pair of a name and a value, but has so many parts. -/
  | noPair (index parts : Nat)
  /-- An item of a list has no parts that could be a name and a value. -/
  | noSequence (index : Nat)
  /-- An operation is called with arguments it does not take. -/
  | badArguments
  deriving DecidableEq, Repr

namespace Fault

/-- The longest part of a quoted text that the text of a fault repeats. -/
def quotedLimit : Nat := 200

/-- The text of a fault. -/
def message : Fault → String
  | .missingField name => Text.quoted name
  | .noOperation shape operation =>
    "'" ++ shape.word ++ "' object has no attribute '" ++ operation ++ "'"
  | .noItems shape => "'" ++ shape.word ++ "' object is not iterable"
  | .noMembers shape => "argument of type '" ++ shape.word ++ "' is not iterable"
  | .noMapping shape => "'" ++ shape.word ++ "' object is not a mapping"
  | .missingItem => "list index out of range"
  | .noParts shape => "'" ++ shape.word ++ "' object is not subscriptable"
  | .noText shape => "expected string or bytes-like object, got '" ++ shape.word ++ "'"
  | .noKey shape => "unhashable type: '" ++ shape.word ++ "'"
  | .noNumeral shape =>
    "int() argument must be a string, a bytes-like object or a real number, not '"
      ++ shape.word ++ "'"
  | .malformedNumeral text =>
    "invalid literal for int() with base 10: "
      ++ String.ofList ((Text.quotedChars text.toList).take quotedLimit)
  | .overlongNumeral digits =>
    "Exceeds the limit (" ++ toString Text.maxNumeralDigits
      ++ " digits) for integer string conversion: value has " ++ toString digits
      ++ " digits; use sys.set_int_max_str_digits() to increase the limit"
  | .undefinedNumber => "cannot convert float NaN to integer"
  | .infiniteNumber => "cannot convert float infinity to integer"
  | .countTooLarge => "Python int too large to convert to C int"
  | .durationTooLong days =>
    "days=" ++ toString days ++ "; must have magnitude <= 999999999"
  | .dateOutOfRange => "date value out of range"
  | .noPair index parts =>
    "dictionary update sequence element #" ++ toString index ++ " has length "
      ++ toString parts ++ "; 2 is required"
  | .noSequence index =>
    "cannot convert dictionary update sequence element #" ++ toString index ++ " to a sequence"
  | .badArguments => "unexpected arguments"

end Fault

namespace Json

/-! ## Documents used as something -/

/-- The field of a document that must be an object, null when it is absent. -/
def fieldOf (j : Json) (name : String) : Except Fault Json :=
  match j with
  | .object fields => .ok (fields.value name)
  | j => .error (.noOperation j.shape "get")

/-- The field that an object must have. -/
def requiredField (j : Json) (name : String) : Except Fault Json :=
  match j with
  | .object fields =>
    match fields.get? name with
    | some value => .ok value
    | none => .error (.missingField name)
  | j => .error (.noParts j.shape)

/-- What going through a document yields: the items of a list, the names of an object's fields,
the characters of a text. -/
def itemsOf : Json → Except Fault (List Json)
  | .list items => .ok items
  | .object fields => .ok (fields.names.map .text)
  | .text s => .ok (s.toList.map fun c => .text (String.singleton c))
  | j => .error (.noItems j.shape)

/-- What going through a document yields, nothing when it does not count as given. -/
def givenItemsOf (j : Json) : Except Fault (List Json) :=
  if j.truthy then j.itemsOf else .ok []

/-- The fields of a document that must be an object if it counts as given. -/
def givenFields (j : Json) (operation : String) : Except Fault Fields :=
  if !j.truthy then .ok .empty
  else match j with
    | .object fields => .ok fields
    | j => .error (.noOperation j.shape operation)

/-- The whole number of a document: of a truth value, of a number without its fraction, of a text
that spells one. -/
def wholeOf : Json → Except Fault Int
  | .bool b => .ok (if b then 1 else 0)
  | .number (.whole n) => .ok n
  | .number (.binary x) =>
    match x.truncate? with
    | some n => .ok n
    | none => .error (if x == .notANumber then .undefinedNumber else .infiniteNumber)
  | .text s =>
    match Text.readWhole s with
    | .ok n => .ok n
    | .error .malformed => .error (.malformedNumeral s)
    | .error (.tooLong digits) => .error (.overlongNumeral digits)
  | j => .error (.noNumeral j.shape)

/-- The trimmed text of a document that does not count as given or is a text. -/
def trimmedText (j : Json) : Except Fault String :=
  match j with
  | .text s => .ok (Text.trim s)
  | j => if j.truthy then .error (.noOperation j.shape "strip") else .ok ""

end Json
end Casework
