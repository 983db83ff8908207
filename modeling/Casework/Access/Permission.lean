/-
  Casework.Access.Permission

  What roles are allowed to do, in general. Owners and administrators may do everything; members and
  users all but administration and the reading and writing of whole definitions; guests only read.
-/
import Casework.Access.Role

namespace Casework

/-- A thing that a role can be allowed to do. -/
inductive Permission where
  | administer
  | readActivity
  | readContacts
  | writeContacts
  | readDashboard
  | readNotifications
  | writeNotifications
  | readTasks
  | writeTasks
  | claimTasks
  | readUsers
  | readDefinitions
  | readFullDefinitions
  | writeDefinitions
  | readWorkflows
  | writeWorkflows
  | triggerWorkflows
  deriving DecidableEq, Repr

namespace Permission

/-- The name of a permission. -/
def word : Permission → String
  | .administer => "admin.access"
  | .readActivity => "activity.read"
  | .readContacts => "contacts.read"
  | .writeContacts => "contacts.write"
  | .readDashboard => "dashboard.read"
  | .readNotifications => "notifications.read"
  | .writeNotifications => "notifications.write"
  | .readTasks => "tasks.read"
  | .writeTasks => "tasks.write"
  | .claimTasks => "tasks.claim"
  | .readUsers => "users.read"
  | .readDefinitions => "workflow-definitions.read"
  | .readFullDefinitions => "workflow-definitions.read_full"
  | .writeDefinitions => "workflow-definitions.write"
  | .readWorkflows => "workflows.read"
  | .writeWorkflows => "workflows.write"
  | .triggerWorkflows => "workflows.trigger"

/-- All permissions, in the order in which they are listed. -/
def all : List Permission := [
  .administer, .readActivity, .readContacts, .writeContacts, .readDashboard, .readNotifications,
  .writeNotifications, .readTasks, .writeTasks, .claimTasks, .readUsers, .readDefinitions,
  .readFullDefinitions, .writeDefinitions, .readWorkflows, .writeWorkflows, .triggerWorkflows]

/-- The permission of this name. -/
def ofWord? (word : String) : Option Permission := all.find? fun p => p.word == word

/-- Whether members have the permission. -/
def ofMembers : Permission → Bool
  | .administer | .readFullDefinitions | .writeDefinitions => false
  | _ => true

/-- Whether guests have the permission. -/
def ofGuests : Permission → Bool
  | .readActivity | .readContacts | .readDashboard | .readNotifications | .readTasks
  | .readWorkflows | .readDefinitions => true
  | _ => false

end Permission

/-- Whether a base role has a permission. -/
def BaseRole.may (role : BaseRole) (permission : Permission) : Bool :=
  match role with
  | .owner | .admin => true
  | .member | .user => permission.ofMembers
  | .guest => permission.ofGuests

/-- Whether a role has a permission. -/
def Role.may (role : Option String) (permission : Permission) : Bool :=
  (BaseRole.resolve role).may permission

end Casework
