/-
  Casework.Contact.Store

  Contacts in the store: putting new ones, looking them up, and giving their fields new values.
-/
import Casework.Contact.Change
import Casework.Store.Session

namespace Casework.Store

/-- Puts a new contact with some values. What is no field of contacts is passed over. -/
def createContact (org : Json) (given : Fields) : Tx Contact := do
  let values ← lift (Contact.newValues given)
  let id ← identify .contact (given.value "id")
  let moment ← bareNow
  let contact : Contact ← liftColumn do
    Column.noDate (given.value "created_at")
    Column.noDate (given.value "updated_at")
    let id ← (Column.text id)
    let org ← Column.text org
    let kept ← Contact.kept values
    pure {
      id := ← Column.required id
      org := ← Column.required org
      values := Contact.noValues.putAll kept.toList
      created := moment
      updated := moment }
  add contact
  pure contact

/-- The contact with an id in an organization. -/
def contact? (id org : String) : Tx (Option Contact) := find? id org

/-- Gives fields of the contact with an id in an organization new values; what is shown of the
changed contact. -/
def updateContact (id org : String) (payload : Fields) : Tx (Option Fields) := do
  match ← contact? id org with
  | none => pure none
  | some c =>
    let values ← lift (Contact.newValues payload)
    let kept ← liftColumn (Contact.kept values)
    let moment ← now
    change (Record.isOf id org) fun _ : Contact => { c.keep kept with updated := moment.bare }
    let shown := c.put (values.map (·.shown))
    pure (some { shown with updated := moment }.shown)

end Casework.Store
