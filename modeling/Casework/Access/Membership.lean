/-
  Casework.Access.Membership

  What an organization decides about access, as it is kept: its members, its policies for the fields
  of contacts, and the addresses from which it sends e-mail.
-/
import Casework.Access.Recipient
import Casework.Contact.Basic
import Casework.Json.Key

namespace Casework

/-- A kept member of an organization. -/
structure Membership where
  id : String
  org : String
  user : String
  email : String
  role : Option String
  /-- Further roles. -/
  roles : Json
  created : Moment
  deriving Repr

namespace Membership

/-- Everything kept about a member. -/
def row (m : Membership) : Fields := ⟨[
  ("id", .text m.id), ("org_id", .text m.org), ("user_id", .text m.user),
  ("email", .text m.email), ("role", .optText m.role), ("roles", m.roles),
  ("created_at", m.created.toJson)]⟩

/-- The further roles as a set: equal ones are one. -/
def roleSet (m : Membership) : Except Fault (List Json) := do
  let keys ← (← m.roles.givenItemsOf).mapM Json.key
  pure ((keys.foldl (fun set k => if set.any k.same then set else set ++ [k]) []).map Key.toJson)

/-- The member that notices are sent to. -/
def member (m : Membership) : Except Fault Member := do
  pure ⟨m.user, m.email, m.role, ← m.roleSet⟩

end Membership

/-- A kept policy. -/
structure PolicyRecord where
  id : String
  org : String
  /-- The kind of thing that the policy is about. -/
  entity : String
  policy : FieldPolicy
  deriving Repr

/-- Everything kept about a policy. -/
def PolicyRecord.row (p : PolicyRecord) : Fields := ⟨[
  ("id", .text p.id), ("org_id", .text p.org), ("entity_type", .text p.entity),
  ("field_key", .text p.policy.field), ("role_key", .text p.policy.role),
  ("can_read", .bool p.policy.read), ("can_write", .bool p.policy.write)]⟩

/-- The addresses of an organization. -/
structure SenderList where
  org : String
  addresses : Json
  updated : Moment
  deriving Repr

/-- Everything kept about the addresses of an organization. -/
def SenderList.row (s : SenderList) : Fields := ⟨[
  ("org_id", .text s.org), ("allowed_from_emails", s.addresses),
  ("updated_at", s.updated.toJson)]⟩

end Casework
