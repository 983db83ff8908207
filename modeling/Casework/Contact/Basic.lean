/-
  Casework.Contact.Basic

  Contacts: what an organization knows about a person. The values are kept by the name of the field,
  because access to them is decided field by field.
-/
import Casework.Access.ContactField
import Casework.Time.Moment

namespace Casework

/-- A contact. -/
structure Contact where
  id : String
  org : String
  /-- The values of the fields of contacts. -/
  values : Fields
  created : Moment
  updated : Moment
  deriving Repr

/-- A moment as a document. -/
def Moment.toJson (m : Moment) : Json := .text m.render

/-- An optional moment as a document. -/
def Moment.optJson (m : Option Moment) : Json := .optText (m.map Moment.render)

namespace Contact

/-- Everything kept about a contact. -/
def row (c : Contact) : Fields :=
  ⟨[("id", .text c.id), ("org_id", .text c.org)] ++ c.values.toList ++
    [("created_at", c.created.toJson), ("updated_at", c.updated.toJson)]⟩

/-- The value of a field as it is shown: tags and metadata are never null. -/
def shownValue (name : String) (value : Json) : Json :=
  if name == "tags" then value.orElse (.list [])
  else if name == "metadata" then value.orElse (.obj [])
  else value

/-- A contact as it is shown. -/
def shown (c : Contact) : Fields :=
  ⟨c.row.toList.map fun (name, value) => (name, shownValue name value)⟩

/-- What a run is told about a contact: what is shown without the organization, the metadata and
the moments of keeping. -/
def told (c : Contact) : Fields :=
  ⟨c.shown.toList.filter fun (name, _) =>
    !(["org_id", "created_at", "updated_at", "metadata"].contains name)⟩

end Contact
end Casework
