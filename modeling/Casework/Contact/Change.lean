/-
  Casework.Contact.Change

  New values for the fields of a contact. A changed contact is shown with the values as they were
  given, while the store keeps what its columns make of them.
-/
import Casework.Contact.Basic
import Casework.Store.Column
import Casework.Time.Reader

namespace Casework.Contact

/-- Whether a field keeps documents of any form. -/
def keepsDocuments (name : String) : Bool := name == "tags" || name == "metadata"

/-- A new value of a field. -/
structure NewValue where
  /-- The value as the changed contact shows it. -/
  shown : Json
  /-- The value as the store keeps it. -/
  kept : Except StoreFault Json

namespace NewValue

/-- A value that is kept as it is given. -/
def asGiven (value : Json) : NewValue := ⟨value, .ok value⟩

/-- The new value of a field of dates. A blank text stands for no date. -/
def ofDate (name : String) : Json → Except Failure NewValue
  | .text s =>
    if Text.trim s == "" then .ok (asGiven .null)
    else match Moment.read? (Moment.universal s) with
      | some moment => .ok ⟨moment.toJson, .ok moment.bare.toJson⟩
      | none => .error (.invalid ("Invalid " ++ name ++ ": " ++ s))
  | value => .ok ⟨value, (fun _ => .null) <$> Column.noDate value⟩

/-- The new value of a field. -/
def of (name : String) (value : Json) : Except Failure NewValue :=
  if name == "last_contacted_at" then ofDate name value
  else if keepsDocuments name then .ok (asGiven value)
  else .ok ⟨value, Column.shown value⟩

end NewValue

/-- New values under the names of their fields. -/
abbrev NewValues := Entries NewValue

/-- The new values that a payload gives. -/
def newValues (payload : Fields) : Except Failure NewValues :=
  Entries.mk <$> payload.toList.mapM fun (name, value) => do
    pure (name, ← NewValue.of name value)

/-- What the store keeps of new values: dates are looked at before all else, the rest in order. -/
def kept (values : NewValues) : Except StoreFault Fields := do
  if let some date := values.get? "last_contacted_at" then discard date.kept
  let texts ← contactFields.filterMapM fun name =>
    match values.get? name with
    | some value => do pure (some (name, ← value.kept))
    | none => pure none
  pure ⟨texts⟩

/-- A contact with some values replaced. -/
def put (c : Contact) (values : Fields) : Contact :=
  { c with values := ⟨c.values.toList.map fun (name, value) =>
      (name, (values.get? name).getD value)⟩ }

/-- A contact that is told to keep new values. -/
def keep (c : Contact) (values : Fields) : Contact :=
  c.put ⟨values.toList.map fun (name, value) =>
    (name, if keepsDocuments name then Column.document (c.values.value name) value else value)⟩

/-- No value in any field. -/
def noValues : Fields := ⟨contactFields.map fun name => (name, .null)⟩

end Casework.Contact
