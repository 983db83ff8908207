/-
  Casework.Audit.Store

  The audit trail in the store. An entry that the store does not take is given up, together with
  every change of the session that is not yet committed. That alone is no failure; but what the
  session has read before is then no longer at hand, and who goes on with it has a statement
  refused.
-/
import Casework.Store.Session

namespace Casework.Store

/-- Puts an entry into the audit trail. -/
def addAudit (org : String) (user : Option String) (entityKind entity action : String)
    (details : Json) : Tx Unit := do
  let id ← freshId .audit
  let entry : AuditEntry :=
    { id, org, user, entityKind, entity, action, details, created := ← bareNow }
  if (← get).refusesAudit then throw (.store .constraint) else add entry

/-- Puts an entry into the audit trail, or drops the changes of the session. -/
def record (org : String) (user : Option String) (entityKind entity action : String)
    (details : Json) : Tx Unit :=
  tryCatch (addAudit org user entityKind entity action details) fun _ => rollback

/-- Does something and goes on with what was read before. If the store has not taken an entry on the
way, that is no longer at hand, and the statement that would read it again is refused. -/
def holding {α : Type} (act : Tx α) : Tx α := do
  let begun := (← get).ids .audit
  let a ← act
  let s ← get
  if s.refusesAudit && s.ids .audit != begun then throw (.store .expired) else pure a

/-- The entries about a thing, the oldest first. -/
def auditOf (org entityKind entity : Json) : Tx (List AuditEntry) := do
  let org ← liftColumn (Column.text org)
  let entityKind ← liftColumn (Column.text entityKind)
  let entity ← liftColumn (Column.text entity)
  oldestFirst AuditEntry.created <$> select fun e =>
    some e.org == org && some e.entityKind == entityKind && some e.entity == entity

end Casework.Store
