/-
  Casework.Access.Recipient

  Whom a notification reaches: the members of an organization that its recipients stand for, in the
  order of the members. Recipients are read from a program's configuration, whose parts can have any
  form.
-/
import Casework.Access.Role

namespace Casework

/-- A member of an organization. -/
structure Member where
  user : String
  email : String
  role : Option String
  roles : List Json
  deriving Repr

/-- The roles of a member, in normal form. -/
def Member.roleSet (m : Member) : Except Fault (List String) :=
  Role.setOfJson (.optText m.role :: m.roles)

/-- The recipients of a notification. -/
inductive Recipients where
  | organization
  | user (value : Json)
  | role (name : Json)
  | groups (names : List Json)
  deriving Repr

namespace Recipients

/-- The recipients that a configuration describes. -/
def ofConfig (config : Json) : Except Fault Recipients := do
  match ← config.fieldOf "type" with
  | .text "user" => pure (.user ((config.field "userId").orElse (.text "")))
  | .text "role" => pure (.role ((config.field "role").orElse (.text "")))
  | .text "group" | .text "groups" =>
    .groups <$> ((config.field "groupIds").orElse (config.field "groups")).givenItemsOf
  | _ => pure .organization

/-- The members with this e-mail address, in any case, or else with this user id. -/
def named (value : String) (members : List Member) : List Member :=
  if value == "" then []
  else if value.toList.contains '@' then
    members.filter fun m => Text.lower m.email == Text.lower value
  else members.filter fun m => m.user == value

/-- The members that hold one of some roles. -/
def holding (targets : List String) (members : List Member) : Except Fault (List Member) :=
  if targets.isEmpty then .ok []
  else members.filterM fun m => (fun held => held.any targets.contains) <$> m.roleSet

/-- The user ids of the members that are reached. -/
def resolve (recipients : Recipients) (members : List Member) : Except Fault (List String) := do
  let reached ← match recipients with
    | .organization => pure members
    | .user value => (fun s => named s members) <$> value.trimmedText
    | .role name => do holding (← Role.ofJson name).toList members
    | .groups names => do holding (← Role.setOfJson names) members
  pure (reached.map Member.user)

end Recipients
end Casework
