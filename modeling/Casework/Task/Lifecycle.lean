/-
  Casework.Task.Lifecycle

  What people do with tasks: claim them, edit them, set their status, approve and reject them. A
  task is written to before anybody outside hears of it, and what happens outside never undoes the
  write. Who loses to another writer is told about the task as it is now.
-/
import Casework.Program.StoredStep
import Casework.Task.Changes
import Casework.Task.Dialogue

namespace Casework.Task

/-- What an operation leads to. -/
structure Transition where
  task : Task
  /-- Whether a run was told. -/
  signaled : Bool := false
  /-- Whether the task can be shown. -/
  showable : Bool := true

namespace Lifecycle

/-- The failure when the task is not in the actor's organization. -/
def missing : Failure := .notFound "Task not found"

/-- The failure when an operation comes too late for a task. -/
def late (message : String) (t : Task) : Failure :=
  .conflict { message, status := some t.status, outcome := t.outcome }

/-- The task, which must be there. -/
def load : Dialogue Task := do
  match ← Dialogue.request .read with
  | some task => pure task
  | none => .fail missing

/-- The execution of a task, if it has one and it can be found, or why it cannot be looked for. -/
def lookUp (t : Task) : Dialogue (Except Failure (Option Execution)) :=
  match t.execution with
  | none | some "" => pure (.ok none)
  | some id => Dialogue.request (.execution id)

/-- The execution of a task. -/
def executionOf (t : Task) : Dialogue (Option Execution) := do
  Dialogue.lift (← lookUp t)

/-- The run of a task's execution, if it has one and the execution can be found. -/
def workflowOf (t : Task) : Dialogue (Option String) := do
  match ← lookUp t with
  | .ok (some execution) => pure (execution.workflow.filter (· != ""))
  | _ => pure none

/-- Sends messages to a run, one after the other; whether any was sent. -/
def send (workflow : String) : List Signal → Dialogue Bool
  | [] => pure false
  | message :: rest => do
    let sent ← Dialogue.request (.signal workflow message)
    let others ← send workflow rest
    pure (sent || others)

/-- Tells the run of a task what became of the task; whether the run was told. -/
def announce (t : Task) (messages : List Signal) : Dialogue Bool := do
  match ← workflowOf t with
  | none => pure false
  | some workflow => send workflow messages

/-! ## Claiming -/

/-- The failure when a task is held by somebody. -/
def held (t : Option Task) : Failure :=
  .conflict {
    message := "Task already claimed by another user"
    status := t.map Task.status
    assignee := t.bind Task.assignee }

/-- Takes a task that is assigned to a role of the actor and that nobody has. -/
def claim (actor : AccessContext) : Dialogue Transition := do
  let task ← load
  Dialogue.require (task.role.getD "" != "")
    (.invalid "Task is not assigned to a role and cannot be claimed")
  Dialogue.require (task.assignee.getD "" == "") (held (some task))
  Dialogue.require (actor.holdsRole task.role)
    (.forbidden "You do not have the role required to claim this task")
  match ← Dialogue.request (.write (.claim (some actor.user))) with
  | none =>
    Dialogue.require (← Dialogue.request .isThere) missing
    .fail (held (← Dialogue.request .read))
  | some claimed =>
    Dialogue.request .commit
    Dialogue.request (.log "claimed" (.obj [("assignedRole", .optText claimed.role)]))
    pure { task := claimed }

/-! ## Editing -/

/-- The failure that changes lead to whatever the task is. -/
def Changes.refusal? (given : Fields) : Option Failure :=
  let unknown := given.sortedNames.filter fun name => !Changes.fields.contains name
  if given.has "status" then some (.invalid "Use the status operation to change task status")
  else if !unknown.isEmpty then
    some (.invalid ("Unsupported task field(s): " ++ ", ".intercalate unknown))
  else
    match given.get? "priority", given.get? "title" with
    | some priority, title =>
      if (priority.text?.map priorities.contains).getD false then titleRefusal? title
      else some (.invalid ("Invalid priority: " ++ priority.plain))
    | none, title => titleRefusal? title
where
  /-- The failure that a title leads to. -/
  titleRefusal? : Option Json → Option Failure
    | none => none
    | some title =>
      if (title.text?.map Text.trim).getD "" == "" then some (.invalid "Task title cannot be empty")
      else none

/-- Whom changes give the task to, if that user is to be told. -/
def Changes.told? (given : Fields) (previous : Option String) (actor : AccessContext) :
    Option Json :=
  let user := given.value "assigned_to"
  if user.truthy && user.text? != some (previous.getD "") &&
    !user.isTextOf actor.user then some user
  else none

/-- Changes fields of a task. -/
def mutate (actor : AccessContext) (given : Fields) : Dialogue Transition := do
  if let some failure := Changes.refusal? given then .fail failure
  let task ← load
  Dialogue.require (actor.canMutate task.assignment)
    (.forbidden "You do not have permission to update this task")
  match ← Dialogue.request (.update given) with
  | none => .fail missing
  | some updated =>
    Dialogue.request .commit
    if let some user := Changes.told? given task.assignee actor then
      Dialogue.request (.tell user updated.title)
    Dialogue.request (.log "updated" (.obj [("fields", .texts given.sortedNames)]))
    pure { task := updated, showable := Changes.areShowable given }

/-! ## Setting the status -/

/-- The details of a change of status. -/
def statusChange (before after : String) : Json :=
  .obj [("from", .text before), ("to", .text after)]

/-- Marks a task as done. A task that was done already stays as it is, and nobody is told. -/
def finish (actor : AccessContext) (id before : String) : Dialogue Transition := do
  match ← Dialogue.request (.write .complete) with
  | none => pure { task := ← load }
  | some completed =>
    Dialogue.request .commit
    let signaled ← announce completed [.completed id actor.user]
    Dialogue.request (.log "status_changed" (statusChange before done))
    pure { task := completed, signaled }

/-- Sets the status of a task that stays open. -/
def reopen (before after : String) : Dialogue Transition := do
  match ← Dialogue.request (.write (.setOpen after)) with
  | none => .fail (late "Task is already done" (← load))
  | some updated =>
    Dialogue.request .commit
    Dialogue.request (.log "status_changed" (statusChange before after))
    pure { task := updated }

/-- Sets the status of a task. -/
def setStatus (actor : AccessContext) (id : String) (status : Json) : Dialogue Transition := do
  let status := status.text?.getD ""
  Dialogue.require (statuses.contains status) (.invalid "Invalid status")
  let task ← load
  Dialogue.require (actor.canMutate task.assignment)
    (.forbidden "You do not have permission to update this task")
  Dialogue.require (!(task.isApproval && status == done))
    (.invalid "Approval tasks cannot be marked done via status. Use approve or reject.")
  if status == done then finish actor id task.status
  else
    Dialogue.require (!task.isDone) (late "Task is already done" task)
    reopen task.status status

/-! ## Deciding -/

/-- The two ways to decide an approval. -/
inductive Decision where
  | approve
  | reject
  deriving DecidableEq, Repr

/-- The outcome of a decision. -/
def Decision.outcome : Decision → String
  | .approve => "approved"
  | .reject => "rejected"

/-- The word for deciding so. -/
def Decision.verb : Decision → String
  | .approve => "approve"
  | .reject => "reject"

/-- The comment that a document gives: a text that is not blank, without the blanks around it. -/
def commentOf : Json → Except Failure (Option String)
  | .null => .ok none
  | .text s => .ok (some (Text.trim s) |>.filter (· != ""))
  | _ => .error (.invalid "comment must be a string when provided")

/-- Decides an approval that was open. Who comes too late is told how it was decided. -/
def settle (decision : Decision) (actor : AccessContext) (id : String) (comment : Option String) :
    Dialogue Transition := do
  match ← Dialogue.request (.write (.decide (some decision.outcome) comment)) with
  | none =>
    let current ← load
    Dialogue.require current.isApproval (.invalid "Task is not an approval task")
    .fail (late "Task already completed" current)
  | some decided =>
    Dialogue.request .commit
    let signaled ← announce decided
      [.completed id actor.user, .decided decision.outcome comment actor.user]
    Dialogue.request (.log "status_changed"
      (.obj [("outcome", .text decision.outcome), ("comment", .optText comment)]))
    pure { task := decided, signaled }

/-- Decides an approval. -/
def conclude (decision : Decision) (actor : AccessContext) (id : String) (comment : Json) :
    Dialogue Transition := do
  let comment ← Dialogue.lift (commentOf comment)
  let task ← load
  Dialogue.require (actor.canMutate task.assignment)
    (.forbidden ("You do not have permission to " ++ decision.verb ++ " this task"))
  Dialogue.require task.isApproval (.invalid "Task is not an approval task")
  Dialogue.require (!task.isDone) (late "Task already completed" task)
  let execution ← executionOf task
  let steps := (execution.map Execution.steps).getD .null
  let needed ← Dialogue.lift (Failure.ofFault (requiresComment steps (.optText task.creator)))
  Dialogue.require (!needed || comment.isSome)
    (.invalid "A comment is required for this approval step")
  settle decision actor id comment

end Lifecycle
end Casework.Task
