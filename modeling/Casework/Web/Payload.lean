/-
  Casework.Web.Payload

  What requests carry, and what is wrong with it. A payload is read against the form that its route
  asks for; every violation says where it is, and repeats what was found there.
-/
import Casework.Json.Basic

namespace Casework.Web

/-- What is wrong with a part of a payload. -/
inductive Violation where
  /-- The part is not there. -/
  | missing
  /-- A text is needed. -/
  | noText
  /-- A text is too short. -/
  | tooShort (least : Nat)
  /-- An object is needed. -/
  | noObject
  /-- An object with certain fields is needed. -/
  | noRecord
  deriving DecidableEq, Repr

namespace Violation

/-- The kind of a violation. -/
def kind : Violation → String
  | .missing => "missing"
  | .noText => "string_type"
  | .tooShort _ => "string_too_short"
  | .noObject => "dict_type"
  | .noRecord => "model_attributes_type"

/-- The text of a violation. -/
def message : Violation → String
  | .missing => "Field required"
  | .noText => "Input should be a valid string"
  | .tooShort least =>
    "String should have at least " ++ toString least ++
      (if least == 1 then " character" else " characters")
  | .noObject => "Input should be a valid dictionary"
  | .noRecord => "Input should be a valid dictionary or object to extract fields from"

/-- A violation in a part of the payload, with what was found there. -/
def toJson (v : Violation) (field : Option String) (found : Json) : Json :=
  let place := "body" :: field.toList
  .object <| (Entries.mk [
    ("type", .text v.kind), ("loc", .texts place), ("msg", .text v.message),
    ("input", found)]).putSome "ctx" <|
      match v with
      | .tooShort least => some (.obj [("min_length", .nat least)])
      | _ => none

end Violation

/-- A payload that was read, or the violations in it. -/
abbrev Payload (α : Type) := Except (List Json) α

namespace Payload

/-- The payload that must be there. -/
def required (body : Json) : Payload Json :=
  if body.isNull then .error [Violation.missing.toJson none .null] else .ok body

/-- An object of any fields. -/
def object (body : Json) : Payload Fields := do
  match ← required body with
  | .object fields => pure fields
  | j => throw [Violation.noObject.toJson none j]

/-- An object with certain fields. -/
def fields : Json → Payload Fields
  | .object fields => .ok fields
  | j => .error [Violation.noRecord.toJson none j]

/-- The violation of a field of text, if there is one. -/
def textViolation? (name : String) (least : Nat) : Json → Option Json
  | .text s => if s.length < least then some ((Violation.tooShort least).toJson name (.text s))
    else none
  | j => some (Violation.noText.toJson name j)

/-- A new status. -/
def status (body : Json) : Payload String := do
  let given ← fields (← required body)
  match given.get? "status" with
  | none => throw [Violation.missing.toJson "status" (.object given)]
  | some value =>
    match textViolation? "status" 0 value with
    | some violation => throw [violation]
    | none => pure (value.text?.getD "")

/-- The comment of a decision; a decision needs no payload. -/
def comment (body : Json) : Payload Json := do
  if body.isNull then pure .null
  else return (← fields body).value "comment"

/-- The definition to be started, and the contact that it is about. -/
def start (body : Json) : Payload (String × Option String) := do
  let given ← fields (← required body)
  let definition := match given.get? "workflow_definition_id" with
    | none => some (Violation.missing.toJson "workflow_definition_id" (.object given))
    | some value => textViolation? "workflow_definition_id" 1 value
  let contact := match given.value "contact_id" with
    | .null => none
    | value => textViolation? "contact_id" 0 value
  match definition.toList ++ contact.toList with
  | [] => pure ((given.value "workflow_definition_id").text?.getD "",
      (given.value "contact_id").text?)
  | violations => throw violations

/-- Addresses, of any form. -/
def addresses (body : Json) : Payload Json := do
  return (← fields (← required body)).value "allowed_from_emails"

end Payload
end Casework.Web
