/-
  Casework.Program.Variables

  The variables that a program starts with: the fields of the contact, the values of the custom
  variables under their ids and under their friendly keys, and what is known about the workflow.
  Every value is a text.
-/
import Casework.Json.Fault
import Casework.Template.FriendlyKey
import Casework.Template.Resolution

namespace Casework

/-- Variables by their paths. -/
abbrev Variables := Fields

namespace Variables

/-- The text of a value: truth values by their words, texts and numbers plainly, all else
nothing. -/
def textOf : Json → String
  | .bool b => if b then "true" else "false"
  | .text s => s
  | .number n => n.plain
  | _ => ""

/-- The second name under which a contact's field is known. -/
def alias? : String → Option String
  | "first_name" => some "firstName"
  | "last_name" => some "lastName"
  | "avatar_url" => some "avatarUrl"
  | _ => none

/-- Puts a field of the contact. -/
def putContactField (vars : Variables) (name : String) (value : Json) : Variables :=
  let text : Json := .text (textOf value)
  let vars := vars.put (Template.contactPath name) text
  match alias? name with
  | some other => vars.put (Template.contactPath other) text
  | none => vars

/-- A variable as it is declared for a run. -/
structure Declared where
  id : String
  name : String
  kind : Json
  source : Json

/-- The declared variable of a document with a text id and name. -/
def declared? : Json → Option Declared
  | .object fields => do
    let id ← (fields.value "id").text?
    let name ← (fields.value "name").text?
    some {
      id, name
      kind := (fields.get? "type").getD (.text "custom")
      source := (fields.value "source").orElse (.obj []) }
  | _ => none

/-- Whether the value of a declared variable is given with its declaration. -/
def Declared.isCustom (d : Declared) : Except Fault Bool :=
  (fun kind => kind.isTextOf "custom") <$> d.source.fieldOf "type"

/-- The text of a declared variable's value. -/
def Declared.value (d : Declared) : String := textOf (d.source.field "value")

/-- The declared variables whose values are given with them. -/
def customOf (declarations : Json) : Except Fault (List Declared) := do
  let items ← declarations.itemsOf
  (items.filterMap declared?).filterM Declared.isCustom

/-- The friendly keys under which a run finds the values of custom variables. -/
def keysOf (custom : List Declared) : Entries String :=
  Template.friendlyKeys (custom.map fun d => (d.id, d.name))

/-- Puts the values of custom variables. -/
def putCustom (vars : Variables) (custom : List Declared) : Variables :=
  custom.foldl (fun vars d =>
    (vars.put (Template.customPath d.id) (.text d.value)).put
      (Template.customPath (((keysOf custom).get? d.id).getD "")) (.text d.value)) vars

/-- The variables that a program starts with. -/
def initial (contact declarations workflow : Json) : Except Fault Variables := do
  let contactFields ← contact.givenFields "items"
  let custom ← customOf declarations
  let workflowFields ← workflow.givenFields "items"
  let vars := contactFields.toList.foldl (fun vs (name, value) => putContactField vs name value)
    Entries.empty
  pure <| workflowFields.toList.foldl
    (fun vs (name, value) => vs.put ("workflow." ++ name) (.text (textOf value)))
    (putCustom vars custom)

end Variables
end Casework
