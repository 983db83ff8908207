/-
  Casework.Access.ContactField

  Which fields of contacts a role can read and write. An organization's policies decide for single
  roles and fields; without one the base role decides, and a custom role has no access. An actor has
  what any of the roles held grants.
-/
import Casework.Access.Role

namespace Casework

/-- The fields of contacts that access is decided for, in order. -/
def contactFields : List String := [
  "first_name", "last_name", "email", "phone", "company", "role", "status", "avatar_url",
  "last_contacted_at", "address_line1", "address_line2", "city", "state", "zip", "tags",
  "metadata"]

/-- The fields that guests can read. -/
def guestFields : List String := [
  "first_name", "last_name", "company", "role", "status", "avatar_url", "tags"]

/-- An organization's decision about a role and a field. -/
structure FieldPolicy where
  role : String
  field : String
  read : Bool
  write : Bool
  deriving DecidableEq, Repr

/-- What is granted for a field. -/
structure Grant where
  read : Bool
  write : Bool
  deriving DecidableEq, Repr

namespace Grant

/-- What a policy grants: writing only together with reading. -/
def ofPolicy (p : FieldPolicy) : Grant := ⟨p.read, p.read && p.write⟩

/-- What a role has without a policy. -/
def ofRole (role field : String) : Grant :=
  match BaseRole.of? (some role) with
  | some .guest => ⟨guestFields.contains field, false⟩
  | some _ => ⟨true, true⟩
  | none => ⟨false, false⟩

/-- The last policy for a role in normal form and a field. -/
def policy? (policies : List FieldPolicy) (role field : String) : Option FieldPolicy :=
  policies.reverse.find? fun p => Role.normalize p.role == some role && p.field == field

/-- What a role in normal form has for a field. -/
def resolve (policies : List FieldPolicy) (role field : String) : Grant :=
  match policy? policies role field with
  | some p => ofPolicy p
  | none => ofRole role field

end Grant

/-- The fields that an actor can read and write. -/
structure FieldAccess where
  readable : List String
  writable : List String
  deriving DecidableEq, Repr

namespace FieldAccess

/-- What the roles in normal form grant together. -/
def ofRoles (policies : List FieldPolicy) (roles : List String) : FieldAccess where
  readable := contactFields.filter fun field =>
    roles.any fun role => (Grant.resolve policies role field).read
  writable := contactFields.filter fun field =>
    roles.any fun role => (Grant.resolve policies role field).write

/-- What role keys grant together, under an organization's policies. -/
def resolve (keys : List String) (policies : List FieldPolicy) : FieldAccess :=
  ofRoles policies (Role.normalSet keys)

/-- The record with every unreadable field set to null; what is no field of contacts stays. -/
def redact (access : FieldAccess) (record : Fields) : Fields :=
  ⟨record.toList.map fun (name, value) =>
    (name, if contactFields.contains name && !access.readable.contains name then .null else value)⟩

/-- The fields of contacts in a payload that may not be written. -/
def forbidden (access : FieldAccess) (payload : Fields) : List String :=
  contactFields.filter fun field => payload.has field && !access.writable.contains field

end FieldAccess
end Casework
