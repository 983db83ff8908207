/-
  Casework.Proofs.Store.Contact

  What a change of a contact does. The contact is looked up, its new values are read, and what the
  columns keep of them is found out; as long as one of these is in the way, nothing is changed.
-/
import Casework.Contact.Store
import Casework.Proofs.Store.Frame

namespace Casework

/-- The contact with an id in an organization, as a session sees it. -/
def Session.contact? (s : Session) (id org : String) : Option Contact :=
  s.working.contacts.find? (Record.isOf id org)

/-- The records with another contact in the place of the one with an id in an organization. -/
def Records.putContact (records : Records) (id org : String) (c : Contact) : Records :=
  { records with contacts := records.contacts.map fun x => if Record.isOf id org x then c else x }

/-- A contact as the store keeps it when it has been given new values. -/
def Contact.changed (c : Contact) (kept : Fields) (moment : Moment) : Contact :=
  { c.keep kept with updated := moment.bare }

/-- A contact with new values, as it is shown before it is read again. -/
def Contact.asGiven (c : Contact) (values : NewValues) (moment : Moment) : Contact :=
  { c.put (values.map (·.shown)) with updated := moment }

namespace Store

/-- An update looks for the contact, takes the new values, and keeps what the columns make of them;
whatever fails leaves all as it was. -/
theorem result_updateContact (id org : String) (payload : Fields) (s : Session) :
    result (updateContact id org payload) s =
      match s.contact? id org with
      | none => (.ok none, s)
      | some c =>
        match Contact.newValues payload with
        | .error f => (.error f, s)
        | .ok values =>
          match Contact.kept values with
          | .error f => (.error (.store f), s)
          | .ok kept => (.ok (some (c.asGiven values s.now).shown),
              { s with working := s.working.putContact id org (c.changed kept s.now) }) := by
  rw [updateContact, result_bind, show result (contact? id org) s =
    (.ok (s.contact? id org), s) from rfl]
  cases s.contact? id org with
  | none => rfl
  | some c =>
    dsimp only
    rw [result_bind, result_lift]
    cases Contact.newValues payload with
    | error f => rfl
    | ok values =>
      dsimp only
      rw [result_bind]
      cases Contact.kept values <;> rfl

/-- Unless a changed contact is shown, nothing was changed. -/
theorem unchanged_of_updateContact {id org : String} {payload : Fields} {s : Session}
    (h : ∀ shown, (result (updateContact id org payload) s).1 ≠ .ok (some shown)) :
    (result (updateContact id org payload) s).2 = s := by
  -- There are three ways to fail, and in each nothing is put.
  have hresult := result_updateContact id org payload s
  cases hc : s.contact? id org with
  | none =>
    rw [hc] at hresult
    rw [hresult]
  | some c =>
    rw [hc] at hresult
    cases hvalues : Contact.newValues payload with
    | error f =>
      rw [hvalues] at hresult
      rw [hresult]
    | ok values =>
      rw [hvalues] at hresult
      dsimp only at hresult
      cases hkept : Contact.kept values with
      | error f =>
        rw [hkept] at hresult
        rw [hresult]
      | ok kept =>
        rw [hkept] at hresult
        exact absurd (congrArg Prod.fst hresult) (h _)

end Store
end Casework
