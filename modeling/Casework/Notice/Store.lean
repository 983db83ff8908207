/-
  Casework.Notice.Store

  Notices in the store: giving new ones, listing those of a user, and marking them as read.
-/
import Casework.Notice.Basic
import Casework.Store.Session

namespace Casework

/-- A notice that is not yet kept: what its columns are given. -/
structure NoticeDraft where
  user : Json
  kind : String
  title : String
  message : String
  entityKind : Option String := none
  entity : Json := .null
  details : Json := .null

/-- The notice that the store keeps of a draft. -/
def NoticeDraft.notice (d : NoticeDraft) (id : String) (org : Json) (moment : Moment) :
    Except StoreFault Notice := do
  let org ← Column.text org
  let user ← Column.text d.user
  let entity ← Column.text d.entity
  pure {
    org := ← Column.required org
    user := ← Column.required user
    kind := d.kind
    title := d.title
    message := d.message
    entityKind := d.entityKind
    isRead := false
    readAt := none
    details := d.details
    created := moment
    id, entity }

namespace Store

/-- Gives a notice. -/
def createNotice (org : Json) (d : NoticeDraft) : Tx Notice := do
  let id ← freshId .notice
  let notice ← liftColumn (d.notice id org (← bareNow))
  add notice
  pure notice

/-- The notices of a user, the newest first. -/
def noticesOf (org user : Json) (unreadOnly : Bool) : Tx (List Notice) := do
  let org ← liftColumn (Column.text org)
  let user ← liftColumn (Column.text user)
  newestFirst Notice.created <$> select fun n =>
    some n.org == org && some n.user == user && !(unreadOnly && n.isRead)

/-- Marks a notice of a user as read; the notice, if there is such a one. -/
def markRead (id org user : Json) : Tx (Option Notice) := do
  let found : Option Notice ← findBy? id org
  let user ← liftColumn (Column.text user)
  match found with
  | none => pure none
  | some n =>
    if some n.user != user then pure none
    else if n.isRead then pure (some n)
    else
      let moment ← now
      let marked := { n with isRead := true, readAt := some moment }
      change (Record.isOf n.id n.org) fun _ : Notice => { marked with readAt := some moment.bare }
      pure (some marked)

end Store
end Casework
