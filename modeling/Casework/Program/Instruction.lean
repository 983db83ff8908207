/-
  Casework.Program.Instruction

  The instructions of a program. A program is a flat list of them: work to do, waits, conditions
  that jump to another instruction, and marks that do nothing.
-/
import Casework.Definition.Basic
import Casework.Template.Reference
import Casework.Template.Token

namespace Casework

/-- The kinds of task. -/
inductive TaskKind where
  | standard
  | approval
  deriving DecidableEq, Repr

/-- The word for a kind of task. -/
def TaskKind.word : TaskKind → String
  | .standard => "standard"
  | .approval => "approval"

/-- What a task is created from. -/
structure TaskPlan where
  title : String
  links : List String
  kind : TaskKind
  assignTo : Fields
  priority : Json
  requireComment : Bool
  description : Option String
  dueDays : Option Nat
  deriving Repr

/-- What an e-mail is made from. -/
structure MailPlan where
  recipient : String
  subject : String
  body : String
  sender : Option String
  deriving DecidableEq, Repr

/-- Whom a notification goes to. -/
inductive Audience where
  | organization
  | user (id : String)
  | role (name : String)
  | groups (names : List String)
  deriving DecidableEq, Repr

/-- The recipients that a stored step describes, its texts rendered. What names no known kind of
recipients goes to the organization. -/
def Audience.rendered (recipients : Json) (vars : Fields) : Except Fault Audience := do
  match ← recipients.fieldOf "type" with
  | .text "user" => .user <$> Template.renderJson (recipients.field "userId") vars
  | .text "role" => .role <$> Template.renderJson (recipients.field "role") vars
  | .text "group" | .text "groups" => do
    let items ← (recipients.field "groupIds").givenItemsOf
    .groups <$> items.mapM fun item => Template.renderJson item vars
  | _ => pure .organization

/-- What a notification is made from. -/
structure NoticePlan where
  audience : Audience
  title : String
  message : String
  deriving DecidableEq, Repr

/-- How the field of a branch is compared. -/
inductive Comparison where
  | equals
  | notEquals
  | oneOf
  deriving DecidableEq, Repr

/-- The word for a comparison. -/
def Comparison.word : Comparison → String
  | .equals => "equals"
  | .notEquals => "not_equals"
  | .oneOf => "in"

/-- The work that an action asks for. -/
inductive Work where
  | createTask (task : TaskPlan)
  | sendMail (mail : MailPlan)
  | notify (notice : NoticePlan)
  | setStatus (status : String)
  deriving Repr

/-- What an instruction does. -/
inductive Operation where
  /-- The start of the program. -/
  | start (trigger : Trigger) (contactRequired : Bool)
  /-- A place that does nothing. -/
  | mark
  | work (work : Work)
  /-- Waits for the task that an instruction created. -/
  | awaitTask (creator : String) (days : Nat)
  /-- Goes to the target of the first value that the field equals, else to the last target. -/
  | branch (field : String) (comparison : Comparison) (targets : List (String × String))
      (otherwise : String)
  /-- Goes to the target. -/
  | goto (target : String)
  deriving Repr

/-- An instruction of a program. -/
structure Instruction where
  id : String
  label : String
  phase : Option String
  operation : Operation
  deriving Repr

/-- A program. -/
abbrev Program := List Instruction

/-! ## Programs as documents -/

/-- The word for a kind of work. -/
def Work.word : Work → String
  | .createTask _ => "assign_task"
  | .sendMail _ => "send_email"
  | .notify _ => "notification"
  | .setStatus _ => "update_status"

/-- The word for an operation. -/
def Operation.word : Operation → String
  | .start .. | .mark => "trigger"
  | .work w => w.word
  | .awaitTask .. => "wait_for_task"
  | .branch .. | .goto _ => "condition"

/-- The configuration of the start of a program. -/
def Trigger.config (t : Trigger) (contactRequired : Bool) : Json :=
  let base : Fields :=
    ⟨[("triggerType", .text t.kind.word), ("contactRequired", .bool contactRequired)]⟩
  let told := match t.kind with
    | .contactStatus value => base.put "statusValue" (.text value)
    | .formSubmission form => base.put "formId" (.text form)
    | .manual | .api => base
  .object <| match t.initialStatus with
    | some initial => if initial == "" then told else told.put "initialStatus" (.text initial)
    | none => told

/-- The configuration of a task. -/
def TaskPlan.config (t : TaskPlan) : Json :=
  .object <|
    ((Entries.mk [
      ("title", .text t.title),
      ("links", .texts t.links),
      ("taskType", .text t.kind.word),
      ("assignTo", .object t.assignTo),
      ("priority", t.priority),
      ("requireComment", .bool t.requireComment)]).putSome
        "description" (t.description.map .text)).putSome
        "dueDays" (t.dueDays.map .nat)

/-- The configuration of an e-mail. -/
def MailPlan.config (m : MailPlan) : Json :=
  .object <|
    (Entries.mk [
      ("to", .text m.recipient), ("subject", .text m.subject), ("body", .text m.body)]).putSome
        "from" (m.sender.map .text)

/-- Whom a notification goes to, as a document. -/
def Audience.toJson : Audience → Json
  | .organization => .obj [("type", .text "organization")]
  | .user id => .obj [("type", .text "user"), ("userId", .text id)]
  | .role name => .obj [("type", .text "role"), ("role", .text name)]
  | .groups names => .obj [("type", .text "group"), ("groupIds", .texts names)]

/-- A value and where it leads. -/
def branchEntry (value target : String) : Json :=
  .obj [("value", .text value), ("gotoStepId", .text target)]

/-- The field and the value of a jump that is always taken. -/
def always : String := "1"

/-- The configuration of work. -/
def Work.config : Work → Json
  | .createTask task => task.config
  | .sendMail mail => mail.config
  | .notify notice =>
    .obj [("recipients", notice.audience.toJson), ("title", .text notice.title),
      ("message", .text notice.message)]
  | .setStatus status => .obj [("status", .text status)]

/-- The configuration of an operation. -/
def Operation.config : Operation → Json
  | .start trigger contactRequired => trigger.config contactRequired
  | .mark => .obj [("triggerType", .text TriggerKind.manual.word)]
  | .work w => w.config
  | .awaitTask creator days => .obj [("taskStepId", .text creator), ("timeoutDays", .nat days)]
  | .branch field comparison targets otherwise =>
    .obj [("field", .text field), ("operator", .text comparison.word),
      ("branches", .list (targets.map fun (value, target) => branchEntry value target)),
      ("defaultGotoStepId", .text otherwise)]
  | .goto target =>
    .obj [("field", .text always), ("operator", .text Comparison.equals.word),
      ("branches", .list [branchEntry always target])]

/-- An instruction as a document. -/
def Instruction.toJson (i : Instruction) : Json :=
  .object <|
    (Entries.mk [
      ("id", .text i.id), ("type", .text i.operation.word), ("label", .text i.label),
      ("config", i.operation.config)]).putSome "phaseId" (i.phase.map .text)

/-- A program as a document. -/
def Program.toJson (p : Program) : Json := .list (p.map Instruction.toJson)

end Casework
