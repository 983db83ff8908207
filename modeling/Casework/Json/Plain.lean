/-
  Casework.Json.Plain

  The plain text of a document, as it is put into messages, labels and templates: a text stands
  for itself, and inside lists and objects texts are quoted.
-/
import Casework.Json.Basic
import Casework.Text.Quoted

namespace Casework.Json

mutual

/-- The text of a document inside another one. -/
def inner : Json → String
  | .null => "None"
  | .bool true => "True"
  | .bool false => "False"
  | .number n => n.plain
  | .text s => Text.quoted s
  | .list items => "[" ++ ", ".intercalate (innerItems items) ++ "]"
  | .object ⟨fields⟩ => "\x7b" ++ ", ".intercalate (innerFields fields) ++ "\x7d"

/-- The texts of the items of a list. -/
def innerItems : List Json → List String
  | [] => []
  | item :: rest => inner item :: innerItems rest

/-- The texts of the fields of an object. -/
def innerFields : List (String × Json) → List String
  | [] => []
  | (name, value) :: rest => (Text.quoted name ++ ": " ++ inner value) :: innerFields rest

end

/-- The plain text of a document. -/
def plain : Json → String
  | .text s => s
  | j => j.inner

end Casework.Json
