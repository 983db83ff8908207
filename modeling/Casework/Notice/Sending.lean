/-
  Casework.Notice.Sending

  Who is told what: a user about a task that was assigned, and the recipients of a notice about an
  execution.
-/
import Casework.Access.Store
import Casework.Notice.Store

namespace Casework.Store

/-- The title of notices that have none. -/
def defaultNoticeTitle : String := "Notification"

/-- The message of notices that have none. -/
def defaultNoticeMessage : String := "You have a new notification."

/-- Tells a user about being given a task, unless it was the user who did so. -/
def tellAssigned (org user : Json) (task : String) (title : String) (assignedBy : Option String) :
    Tx Unit := do
  let own := match assignedBy with
    | some giver => giver != "" && user.isTextOf giver
    | none => false
  if !own then
    discard <| createNotice org {
      user
      kind := "task_assigned"
      title := "New task assigned"
      message := "You were assigned \"" ++ title ++ "\""
      entityKind := some "task"
      entity := .text task
      details := .obj [("assignedBy", .optText assignedBy)] }

/-- A trimmed text, or another one if nothing is left. -/
def trimmedOr (default : String) (text : Json) : Except Fault String := do
  let trimmed ← text.trimmedText
  pure (if trimmed == "" then default else trimmed)

/-- Gives every user a notice about an execution. -/
def tellUsers (org title message execution : Json) (users : List String) : Tx Unit :=
  users.forM fun user => do
    let title ← liftFault (trimmedOr defaultNoticeTitle title)
    let message ← liftFault (trimmedOr defaultNoticeMessage message)
    discard <| createNotice org {
      user := .text user
      kind := "workflow_notification"
      entityKind := if execution.truthy then some "workflow_execution" else none
      entity := execution
      title, message }

/-- Gives the members that recipients stand for a notice about an execution, each of them once; the
users that were told. -/
def tellRecipients (org recipients title message execution : Json) : Tx (List String) := do
  let members ← membersOf org
  let recipients ← liftFault (Recipients.ofConfig (recipients.orElse (.obj [])))
  let users := Role.union [] (← liftFault (recipients.resolve members))
  tellUsers org title message execution users
  pure users

end Casework.Store
