/-
  Casework.Task.Store

  Tasks in the store: putting new ones, looking them up, and changing them, by conditional writes or
  field by field.
-/
import Casework.Store.Session
import Casework.Task.Changes

namespace Casework

/-- A task that is not yet kept: what its columns are given. -/
structure TaskDraft where
  id : Json := .null
  execution : Json := .null
  contact : Json := .null
  creator : Json := .null
  assignee : Json := .null
  role : Json := .null
  title : Json
  description : Json := .null
  kind : Json := .null
  status : Json := .null
  priority : Json := .null
  due : Option Moment := none
  metadata : Json := .null

namespace TaskDraft

/-- The task that the store keeps of a draft. -/
def task (d : TaskDraft) (id org : Json) (moment : Moment) : Except StoreFault Task := do
  let id ← Column.text id
  let org ← Column.text org
  let execution ← Column.text d.execution
  let contact ← Column.text d.contact
  let creator ← Column.text d.creator
  let assignee ← Column.text d.assignee
  let role ← Column.text d.role
  let title ← Column.text d.title
  let description ← Column.text d.description
  let kind ← Column.text d.kind
  let status ← Column.text d.status
  let priority ← Column.text d.priority
  pure {
    id := ← Column.required id
    org := ← Column.required org
    title := ← Column.required title
    kind := kind.getD Task.standard
    status := status.getD Task.todo
    priority := priority.getD Task.medium
    outcome := none
    comment := none
    due := d.due.map Moment.bare
    completed := none
    metadata := d.metadata
    created := moment
    updated := moment
    execution, contact, creator, assignee, role, description }

end TaskDraft

namespace Store

/-- Puts a new task. -/
def createTask (org : Json) (d : TaskDraft) : Tx Task := do
  let id ← identify .task d.id
  let task ← liftColumn (d.task id org (← bareNow))
  add task
  pure task

/-- The task with an id in an organization. -/
def task? (id org : String) : Tx (Option Task) := find? id org

/-- The tasks of an execution, the oldest first. -/
def tasksOf (execution : Json) : Tx (List Task) := do
  let execution ← liftColumn (Column.text execution)
  oldestFirst Task.created <$> select fun t => t.execution == execution

/-- Writes to the task with an id in an organization if the write applies; the written task. -/
def writeTask (w : Task.Write) (id org : String) : Tx (Option Task) := do
  let moment ← bareNow
  match ← task? id org with
  | none => pure none
  | some t =>
    if w.applies t then
      change (Record.isOf id org) (w.apply moment)
      task? id org
    else pure none

/-- Changes fields of the task with an id in an organization; the changed task. -/
def updateTask (id org : String) (given : Fields) : Tx (Option Task) := do
  match ← task? id org with
  | none => pure none
  | some t =>
    let changes ← lift (Task.Changes.ofFields given)
    let changed := changes.apply (← now) t
    change (Record.isOf id org) fun _ : Task => changed.bare
    pure (some changed)

/-! ## Writes with values given as documents -/

/-- Writes to the task with an id in an organization if the write applies. Null is no id. -/
def writeTaskBy (w : Task.Write) (id org : Json) : Tx (Option Task) := do
  let id ← liftColumn (Column.text id)
  let org ← liftColumn (Column.text org)
  match id, org with
  | some id, some org => writeTask w id org
  | _, _ => pure none

/-- Gives a task to a user while nobody has it. -/
def claimTask (id org user : Json) : Tx (Option Task) := do
  writeTaskBy (.claim (← liftColumn (Column.text user))) id org

/-- Decides an approval while it is open. -/
def decideTask (id org outcome comment : Json) : Tx (Option Task) := do
  let outcome ← liftColumn (Column.text outcome)
  writeTaskBy (.decide outcome (← liftColumn (Column.text comment))) id org

/-- Sets the status of a task while it is open. A task cannot be without a status. -/
def setTaskStatus (id org status : Json) : Tx (Option Task) := do
  match ← liftColumn (Column.text status) with
  | some status => writeTaskBy (.setOpen status) id org
  | none =>
    match ← findBy? id org with
    | some t => if Task.isDone t then pure none else throw (.store .constraint)
    | none => pure none

end Store
end Casework
