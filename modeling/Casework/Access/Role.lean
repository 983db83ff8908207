/-
  Casework.Access.Role

  Roles. They arrive in many spellings and are compared by their normal form: trimmed, in lower
  case, without the lead that marks roles of an organization. Five base roles come with rights of
  their own; every other role is a custom one.
-/
import Casework.Json.Fault
import Casework.Text.Lowercase

namespace Casework

namespace Role

/-- What may stand before the name of a role. -/
def lead : List Char := "org:".toList

/-- The normal form of a role's characters. -/
def normalizeChars (cs : List Char) : List Char :=
  let lowered := Text.lowerChars (Text.trimChars cs)
  if lead.isPrefixOf lowered then lowered.drop lead.length else lowered

/-- The normal form of a role; none when nothing is left. -/
def normalize (role : String) : Option String :=
  let cs := normalizeChars role.toList
  if cs.isEmpty then none else some (String.ofList cs)

/-- The normal form of a role that a document names. -/
def ofJson (j : Json) : Except Fault (Option String) :=
  if !j.truthy then .ok none
  else match j with
    | .text s => .ok (normalize s)
    | j => .error (.noOperation j.shape "strip")

/-- Adds a role to a set of roles. -/
def insert (role : String) (roles : List String) : List String :=
  if roles.contains role then roles else roles ++ [role]

/-- The union of two sets of roles. -/
def union (roles more : List String) : List String := more.foldl (fun rs r => insert r rs) roles

/-- The set of the normal forms of roles. -/
def normalSet (roles : List String) : List String := union [] (roles.filterMap normalize)

/-- The set of the normal forms of roles that documents name. -/
def setOfJson (roles : List Json) : Except Fault (List String) := do
  let normal ← roles.mapM ofJson
  pure (union [] (normal.filterMap id))

end Role

/-- The roles with rights of their own. -/
inductive BaseRole where
  | owner
  | admin
  | member
  | user
  | guest
  deriving DecidableEq, Repr

namespace BaseRole

/-- The name of a base role. -/
def word : BaseRole → String
  | .owner => "owner"
  | .admin => "admin"
  | .member => "member"
  | .user => "user"
  | .guest => "guest"

/-- The base role of a normal form. -/
def ofWord? : String → Option BaseRole
  | "owner" => some .owner
  | "admin" => some .admin
  | "member" => some .member
  | "user" => some .user
  | "guest" => some .guest
  | _ => none

/-- The base role that a role is, if it is one. -/
def of? (role : Option String) : Option BaseRole := (role.bind Role.normalize).bind ofWord?

/-- The base role whose rights a role has: custom roles have those of members. -/
def resolve (role : Option String) : BaseRole := (of? role).getD .member

end BaseRole

/-- Whether a role is that of an administrator. -/
def Role.isAdmin (role : Option String) : Bool :=
  match BaseRole.of? role with
  | some .owner | some .admin => true
  | _ => false

end Casework
