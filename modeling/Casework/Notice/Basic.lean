/-
  Casework.Notice.Basic

  What is kept about what happened: notices, which tell a user inside the application about a task
  or an execution, and the entries of the audit trail, which tell who did what to which thing.
-/
import Casework.Contact.Basic

namespace Casework

/-- A notice. -/
structure Notice where
  id : String
  org : String
  user : String
  kind : String
  title : String
  message : String
  entityKind : Option String
  entity : Option String
  isRead : Bool
  readAt : Option Moment
  details : Json
  created : Moment
  deriving Repr

/-- Everything kept about a notice. -/
def Notice.row (n : Notice) : Fields := ⟨[
  ("id", .text n.id), ("org_id", .text n.org), ("user_id", .text n.user), ("type", .text n.kind),
  ("title", .text n.title), ("message", .text n.message), ("entity_type", .optText n.entityKind),
  ("entity_id", .optText n.entity), ("is_read", .bool n.isRead),
  ("read_at", Moment.optJson n.readAt), ("metadata", n.details), ("created_at", n.created.toJson)]⟩

/-- An entry of the audit trail. -/
structure AuditEntry where
  id : String
  org : String
  user : Option String
  entityKind : String
  entity : String
  action : String
  details : Json
  created : Moment
  deriving Repr

/-- Everything kept in an entry. -/
def AuditEntry.row (e : AuditEntry) : Fields := ⟨[
  ("id", .text e.id), ("org_id", .text e.org), ("user_id", .optText e.user),
  ("entity_type", .text e.entityKind), ("entity_id", .text e.entity), ("action", .text e.action),
  ("details", e.details), ("created_at", e.created.toJson)]⟩

end Casework
