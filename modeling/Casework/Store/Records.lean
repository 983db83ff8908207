/-
  Casework.Store.Records

  Everything that the store holds, kind by kind, in the order of insertion. What the kinds have in
  common is a class: an id, the organization, the columns, and which two records cannot both be
  kept.
-/
import Casework.Access.Membership
import Casework.Definition.Record
import Casework.Execution.Basic
import Casework.Notice.Basic
import Casework.Task.Basic

namespace Casework

/-- Everything that the store holds. -/
structure Records where
  tasks : List Task := []
  executions : List Execution := []
  contacts : List Contact := []
  definitions : List DefinitionRecord := []
  notices : List Notice := []
  audit : List AuditEntry := []
  members : List Membership := []
  policies : List PolicyRecord := []
  senders : List SenderList := []
  deriving Repr

/-- A kind of record. -/
class Record (ρ : Type) where
  id : ρ → String
  org : ρ → String
  row : ρ → Fields
  /-- Whether two records cannot both be kept. -/
  clash : ρ → ρ → Bool
  /-- The records of this kind. -/
  all : Records → List ρ
  /-- The store with other records of this kind. -/
  replace : List ρ → Records → Records

instance : Record Task where
  id := Task.id
  org := Task.org
  row := Task.row
  clash a b := a.id == b.id
  all := Records.tasks
  replace l r := { r with tasks := l }

instance : Record Execution where
  id := Execution.id
  org := Execution.org
  row := Execution.row
  clash a b := a.id == b.id
  all := Records.executions
  replace l r := { r with executions := l }

instance : Record Contact where
  id := Contact.id
  org := Contact.org
  row := Contact.row
  clash a b := a.id == b.id
  all := Records.contacts
  replace l r := { r with contacts := l }

instance : Record DefinitionRecord where
  id := DefinitionRecord.id
  org := DefinitionRecord.org
  row := DefinitionRecord.row
  clash a b := a.id == b.id
  all := Records.definitions
  replace l r := { r with definitions := l }

instance : Record Notice where
  id := Notice.id
  org := Notice.org
  row := Notice.row
  clash a b := a.id == b.id
  all := Records.notices
  replace l r := { r with notices := l }

instance : Record AuditEntry where
  id := AuditEntry.id
  org := AuditEntry.org
  row := AuditEntry.row
  clash a b := a.id == b.id
  all := Records.audit
  replace l r := { r with audit := l }

instance : Record Membership where
  id := Membership.id
  org := Membership.org
  row := Membership.row
  clash a b := a.id == b.id || (a.org == b.org && a.user == b.user)
  all := Records.members
  replace l r := { r with members := l }

instance : Record PolicyRecord where
  id := PolicyRecord.id
  org := PolicyRecord.org
  row := PolicyRecord.row
  clash a b := a.id == b.id ||
    (a.org == b.org && a.entity == b.entity && a.policy.field == b.policy.field &&
      a.policy.role == b.policy.role)
  all := Records.policies
  replace l r := { r with policies := l }

instance : Record SenderList where
  id := SenderList.org
  org := SenderList.org
  row := SenderList.row
  clash a b := a.org == b.org
  all := Records.senders
  replace l r := { r with senders := l }

namespace Record

variable {ρ : Type} [Record ρ]

/-- Whether a record has this id and belongs to this organization. -/
def isOf (id org : String) (r : ρ) : Bool := Record.id r == id && Record.org r == org

end Record

/-! ## Tables by name -/

/-- The columns of every record in the table of this name. -/
def Records.rows? (r : Records) (table : String) : Option (List Fields) :=
  match table with
  | "tasks" => some (r.tasks.map Task.row)
  | "executions" => some (r.executions.map Execution.row)
  | "notifications" => some (r.notices.map Notice.row)
  | "activity" => some (r.audit.map AuditEntry.row)
  | "contacts" => some (r.contacts.map Contact.row)
  | "definitions" => some (r.definitions.map DefinitionRecord.row)
  | "members" => some (r.members.map Membership.row)
  | "senders" => some (r.senders.map SenderList.row)
  | "policies" => some (r.policies.map PolicyRecord.row)
  | _ => none

/-- The names of all tables, in order. -/
def Records.tableNames : List String := [
  "activity_log", "contacts", "notifications", "organization_email_settings",
  "organization_field_visibility_policies", "organization_memberships", "tasks",
  "workflow_definitions", "workflow_executions"]

end Casework
