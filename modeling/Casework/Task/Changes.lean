/-
  Casework.Task.Changes

  Changes to the fields of a task that can be edited. They arrive as a document; a changed task is
  shown with its due date as it was given, while the store keeps dates without their offset. A due
  date is a text that spells a moment, `Z` standing for universal time; other values are read by
  their plain text, and null or a blank text means no due date.
-/
import Casework.Failure
import Casework.Store.Column
import Casework.Task.Basic
import Casework.Time.Reader

namespace Casework.Task

/-- The due date that a document spells. -/
def dueDateOf (j : Json) : Except Failure (Option Moment) :=
  match j with
  | .null => .ok none
  | j =>
    let text := Text.trim j.plain
    if text == "" then .ok none
    else match Moment.read? (Moment.universal text) with
      | some moment => .ok (some moment)
      | none => .error (.invalid ("Invalid due_date: " ++ text))

/-- New values for some fields of a task. -/
structure Changes where
  title : Option String := none
  description : Option (Option String) := none
  priority : Option String := none
  due : Option (Option Moment) := none
  assignee : Option (Option String) := none
  role : Option (Option String) := none
  deriving Repr

namespace Changes

/-- The fields that can be edited. -/
def fields : List String :=
  ["title", "description", "priority", "due_date", "assigned_to", "assigned_role"]

/-- What a column of text keeps of a field, if the field is given. -/
def column (given : Fields) (name : String) : Except StoreFault (Option (Option String)) :=
  (given.get? name).mapM Column.text

/-- The changes that a document describes. -/
def ofFields (given : Fields) : Except Failure Changes := do
  let due ← (given.get? "due_date").mapM dueDateOf
  Failure.ofStore do
    let assignee ← column given "assigned_to"
    let role ← column given "assigned_role"
    let title ← column given "title"
    let description ← column given "description"
    let priority ← column given "priority"
    pure {
      title := ← title.mapM Column.required
      priority := ← priority.mapM Column.required
      description, due, assignee, role }

/-- The task after changes at a moment. -/
def apply (c : Changes) (moment : Moment) (t : Task) : Task :=
  { t with
    title := c.title.getD t.title
    description := c.description.getD t.description
    priority := c.priority.getD t.priority
    due := c.due.getD t.due
    assignee := c.assignee.getD t.assignee
    role := c.role.getD t.role
    updated := moment }

/-- Whether every field is given in a form in which a task can show it. -/
def areShowable (given : Fields) : Bool :=
  ["description", "assigned_to", "assigned_role"].all fun name =>
    (given.value name).isNull || (given.value name).isText

end Changes

/-- The task as the store keeps it: its dates have no offset. -/
def bare (t : Task) : Task :=
  { t with due := t.due.map Moment.bare, updated := t.updated.bare }

end Casework.Task
