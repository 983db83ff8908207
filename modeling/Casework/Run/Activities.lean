/-
  Casework.Run.Activities

  The work that runs ask for, carried out on the store. Each piece of work has a session of its own.
  The parameters are documents of any form; what is wrong with them shows as a fault.
-/
import Casework.Execution.Store
import Casework.Notice.Sending
import Casework.Run.Interpreter
import Casework.Task.Store

namespace Casework.Activities

/-- The sender of mail that names none. -/
def defaultSender : String := "noreply@example.com"

/-- The parameter that must be there. -/
def required (params : Fields) (name : String) : Tx Json :=
  Store.liftFault ((Json.object params).requiredField name)

/-- The due date of a task that is due after some days. -/
def dueAfter (days : Json) : Tx (Option Moment) := do
  if days.isNull then pure none
  else
    let days ← Store.liftFault (days.wholeOf >>= durationDays)
    match (← Store.now).addDays? days with
    | some due => pure (some due)
    | none => throw (.fault .dateOutOfRange)

/-- Creates a task. -/
def createTask (params : Fields) : Tx Json := do
  let config ← Store.liftFault ((params.value "config").givenFields "get")
  let assignment ← Store.liftFault ((config.value "assignTo").givenFields "get")
  let kind := assignment.value "type"
  let assignee := if kind.isTextOf "user" then assignment.value "userId" else .null
  let role := if kind.isTextOf "role" then assignment.value "role" else .null
  let due ← dueAfter (config.value "dueDays")
  let links := (config.value "links").orElse (.list [])
  let org ← required params "org_id"
  let title := (config.value "title").orElse (.text "Untitled task")
  let task ← Store.createTask org {
    execution := params.value "workflow_execution_id"
    contact := params.value "contact_id"
    creator := params.value "step_id"
    description := config.value "description"
    kind := (config.value "taskType").orElse (.text Task.standard)
    priority := (config.value "priority").orElse (.text Task.medium)
    metadata := if links.truthy then .obj [("links", links)] else .null
    assignee, role, title, due }
  if assignee.truthy then Store.tellAssigned org assignee task.id title.plain none
  pure (.obj [("taskId", .text task.id)])

/-- Reports about an execution. -/
def setState (params : Fields) : Tx Json := do
  let id ← required params "workflow_execution_id"
  let org ← required params "org_id"
  let report : Execution.Report := {
    status := params.value "status"
    state := params.value "execution_state"
    step := params.value "current_step_id"
    completed := (params.value "completed").truthy
    details := params.value "details" }
  match ← Store.reportExecution id org report with
  | none => throw (.application ("Execution " ++ id.plain ++ " not found") true)
  | some e =>
    let told (given : Json) (kept : String) : Json := if given.isNull then .text kept else given
    pure (.obj [("status", told report.status e.status),
      ("execution_state", told report.state e.state)])

/-- Sends mail. Only addresses of the organization may be named as the sender. -/
def sendMail (params : Fields) : Tx Json := do
  let recipient ← Store.liftFault (params.value "to").trimmedText
  if recipient == "" then throw (.application "send_email has no recipient" true)
  let sender ← Store.liftFault (params.value "from").trimmedText
  if sender != "" then
    let allowed ← Store.sendersOf (← required params "org_id")
    if !Sender.isAllowed allowed sender then
      throw (.application
        ("Sender " ++ sender ++ " is not in the organization's allowed from addresses") true)
  pure (.obj [("from", .text (if sender == "" then defaultSender else sender)),
    ("to", .text recipient), ("delivered", .bool true)])

/-- Gives notices. -/
def notify (params : Fields) : Tx Json := do
  let org ← required params "org_id"
  let told ← Store.tellRecipients org ((params.value "recipients").orElse (.obj []))
    (params.value "title") (params.value "message") (params.value "workflow_execution_id")
  pure (.obj [("notified", .texts told)])

/-- Carries out a kind of work. -/
def perform : Activity → Fields → Tx Json
  | .createTask => createTask
  | .setState => setState
  | .sendMail => sendMail
  | .notify => notify

end Casework.Activities
