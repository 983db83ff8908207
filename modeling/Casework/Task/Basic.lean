/-
  Casework.Task.Basic

  Tasks: work for a person, created by a step of an execution. A task is open until it is done; an
  approval is done by a decision, every other task by its status. The conditional writes of the
  store apply only while a task is in a certain state, so that of several writers that want the same
  only the first one succeeds.
-/
import Casework.Access.Context
import Casework.Contact.Basic

namespace Casework

/-- A task. -/
structure Task where
  id : String
  org : String
  execution : Option String
  contact : Option String
  /-- The step that created the task. -/
  creator : Option String
  assignee : Option String
  role : Option String
  title : String
  description : Option String
  kind : String
  status : String
  priority : String
  outcome : Option String
  comment : Option String
  due : Option Moment
  completed : Option Moment
  metadata : Json
  created : Moment
  updated : Moment
  deriving Repr

namespace Task

/-! ## Vocabulary -/

/-- The status of a task that is done. -/
def done : String := "done"

/-- The status of a task at first. -/
def todo : String := "todo"

/-- The statuses of tasks. -/
def statuses : List String := ["backlog", todo, "in_progress", done]

/-- The kind of tasks that are done by a decision. -/
def approval : String := "approval"

/-- The kind of tasks that are done by their status. -/
def standard : String := "standard"

/-- The kinds of tasks. -/
def kinds : List String := [standard, approval]

/-- The priority that tasks have unless another one is given. -/
def medium : String := "medium"

/-- The priorities of tasks. -/
def priorities : List String := ["low", medium, "high"]

/-! ## Views -/

/-- Whether a task is done. -/
def isDone (t : Task) : Bool := t.status == done

/-- Whether a task is done by a decision. -/
def isApproval (t : Task) : Bool := t.kind == approval

/-- Whom a task is assigned to. -/
def assignment (t : Task) : Assignment := ⟨t.assignee, t.role⟩

/-- A task as it is shown. -/
def shown (t : Task) : Fields := ⟨[
  ("id", .text t.id), ("org_id", .text t.org),
  ("workflow_execution_id", .optText t.execution), ("contact_id", .optText t.contact),
  ("created_by_step_id", .optText t.creator), ("assigned_to", .optText t.assignee),
  ("assigned_role", .optText t.role), ("title", .text t.title),
  ("description", .optText t.description), ("task_type", .text t.kind),
  ("status", .text t.status), ("priority", .text t.priority),
  ("outcome", .optText t.outcome), ("outcome_comment", .optText t.comment),
  ("due_date", Moment.optJson t.due), ("completed_at", Moment.optJson t.completed),
  ("created_at", t.created.toJson), ("updated_at", t.updated.toJson)]⟩

/-- Everything kept about a task. -/
def row (t : Task) : Fields := t.shown.put "metadata" t.metadata

end Task
end Casework

/-! ## Conditional writes -/

namespace Casework.Task

/-- A conditional write. -/
inductive Write where
  /-- Gives a task to a user while nobody has it. -/
  | claim (user : Option String)
  /-- Marks a task as done while it is open. -/
  | complete
  /-- Decides an approval while it is open. -/
  | decide (outcome comment : Option String)
  /-- Sets the status of a task while it is open. -/
  | setOpen (status : String)
  deriving DecidableEq, Repr

namespace Write

/-- Whether a write applies to a task. -/
def applies : Write → Task → Bool
  | .claim _, t => t.assignee.isNone
  | .complete, t | .setOpen _, t => !t.isDone
  | .decide _ _, t => !t.isDone && t.isApproval

/-- The task after a write at a moment. -/
def apply (moment : Moment) : Write → Task → Task
  | .claim user, t => { t with assignee := user, updated := moment }
  | .complete, t => { t with status := done, completed := some moment, updated := moment }
  | .decide outcome comment, t =>
    { t with status := done, outcome, comment, completed := some moment, updated := moment }
  | .setOpen status, t => { t with status, updated := moment }

end Write
end Casework.Task
