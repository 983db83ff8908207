/-
  Casework.Program.Plan

  Plans: definitions in which every part has the form that an instruction needs. Texts are resolved
  and ready for the program, branches know which value leads into which track, and waits know the
  task they wait for. Making a plan of a definition with issues can fail; making a program of a plan
  cannot.
-/
import Casework.Definition.Validation
import Casework.Json.Fault
import Casework.Program.Instruction

namespace Casework

/-- How long a task without a due date is waited for, in days. -/
def defaultWaitDays : Nat := 7

namespace Plan

/-- An action and the work it asks for. -/
structure Action where
  id : String
  work : Work
  deriving Repr

/-- The task that a step waits for, by the position of its action in the step, and for how many
days. -/
structure Wait where
  position : Nat
  days : Nat
  deriving DecidableEq, Repr

mutual

/-- A planned step. -/
inductive Step where
  | standard (head : StepHead) (actions : List Action) (wait : Option Wait)
  | branch (head : StepHead) (field : String) (comparison : Comparison) (tracks : List Track)

/-- A planned track and the value of the branch's field that leads into it. The track without a
value is taken when no other one is. -/
inductive Track where
  | mk (guard : Option String) (steps : List Step)

end

/-! ## Work -/

/-- The resolved text of a document that is a text or does not count as given. -/
def textOf (keys : Entries String) (j : Json) : Except Fault String :=
  if !j.truthy then .ok ""
  else match j with
    | .text s => .ok (Template.resolved keys s)
    | j => .error (.noText j.shape)

/-- The resolved text of a document, if it counts as given. -/
def givenText (keys : Entries String) (j : Json) : Except Fault (Option String) :=
  if j.truthy then some <$> textOf keys j else .ok none

/-- The resolved texts of a list that are not blank. -/
def linksOf (keys : Entries String) (j : Json) : Except Fault (List String) := do
  let items ← j.givenItemsOf
  .ok <| (items.filterMap Json.text?).filterMap fun s =>
    if Text.isBlankText s then none else some (Template.resolved keys s)

/-- The kind of task that a document names, a standard one when it names none. -/
def taskKindOf (j : Json) : Except Fault TaskKind :=
  if !j.truthy then .ok .standard
  else match j with
    | .text "standard" => .ok .standard
    | .text "approval" => .ok .approval
    | j => .error (.noText j.shape)

/-- The count of days of a document, none when it is null. -/
def daysOf (j : Json) : Except Fault (Option Nat) :=
  match j with
  | .null => .ok none
  | j =>
    match j.count? with
    | some n => .ok (some n)
    | none => .error (.noNumeral j.shape)

/-- What a task is created from. -/
def taskOf (keys : Entries String) (config : Fields) : Except Fault TaskPlan := do
  let title ← textOf keys (config.value "title")
  let links ← linksOf keys (config.value "links")
  let kind ← taskKindOf (config.value "taskType")
  let assignee ← (Json.object config).requiredField "assignTo"
  let assignTo ← match assignee with
    | .object fields => pure fields
    | j => throw (.noItems j.shape)
  let description ← givenText keys (config.value "description")
  let dueDays ← daysOf (config.value "dueDays")
  pure {
    title, links, kind, assignTo
    priority := (config.value "priority").orElse (.text "medium")
    requireComment := (config.value "requireComment").truthy
    description, dueDays }

/-- What an e-mail is made from. -/
def mailOf (keys : Entries String) (config : Fields) : Except Fault MailPlan := do
  let recipient ← textOf keys (config.value "to")
  let subject ← textOf keys (config.value "subject")
  let body ← textOf keys (config.value "body")
  let sender ← givenText keys (config.value "from")
  pure { recipient, subject, body, sender }

/-- Whom a notification goes to. -/
def audienceOf (keys : Entries String) (recipients : Json) : Except Fault Audience := do
  match ← recipients.requiredField "type" with
  | .text "user" => .user <$> textOf keys (recipients.field "userId")
  | .text "role" => .role <$> textOf keys (recipients.field "role")
  | .text "group" => do
    let items ← (recipients.field "groupIds").givenItemsOf
    .groups <$> items.mapM fun item =>
      match item with
      | .text s => .ok (Template.resolved keys s)
      | j => .error (.noText j.shape)
  | _ => pure .organization

/-- What a notification is made from. -/
def noticeOf (keys : Entries String) (config : Fields) : Except Fault NoticePlan := do
  let recipients ← (Json.object config).requiredField "recipients"
  let audience ← audienceOf keys recipients
  let title ← textOf keys (config.value "title")
  let message ← textOf keys (config.value "message")
  pure { audience, title, message }

/-- The status that an action sets. -/
def statusOf (config : Fields) : Except Fault String := do
  match ← (Json.object config).requiredField "status" with
  | .text s => pure s
  | j => throw (.noText j.shape)

/-- The work that a kind of action asks for. -/
def workOf (keys : Entries String) (kind : String) (config : Fields) : Except Fault Work :=
  match kind with
  | "create_task" => .createTask <$> taskOf keys config
  | "send_email" => .sendMail <$> mailOf keys config
  | "notification" => .notify <$> noticeOf keys config
  | "update_status" => .setStatus <$> statusOf config
  | kind => .error (.missingField kind)

/-- A planned action. -/
def actionOf (keys : Entries String) (action : Casework.Action) : Except Fault Action :=
  (⟨action.id, ·⟩) <$> workOf keys action.kind action.config

/-! ## Waits and branches -/

/-- The position of the last task that an action with this id creates, and when the task is due;
`index` actions come before. -/
def findTask (id : String) (index : Nat) : List Action → Option (Nat × Option Nat)
  | [] => none
  | action :: rest =>
    match findTask id (index + 1) rest with
    | some found => some found
    | none =>
      match action.work with
      | .createTask task => if action.id == id then some (index, task.dueDays) else none
      | _ => none

/-- What a step waits for. -/
def waitOf (advancement : Advancement) (actions : List Action) : Except Fault (Option Wait) :=
  if advancement.kind == "when_task_completed" then do
    match ← (Json.object advancement.config).requiredField "taskActionId" with
    | .text id =>
      match findTask id 0 actions with
      | some (position, due) => pure (some ⟨position, max (due.getD defaultWaitDays) 1⟩)
      | none => throw (.missingField id)
    | j => throw (.noText j.shape)
  else .ok none

/-- How the field of a branch is compared, and the values that lead into its tracks. -/
def guardsOf (condition : BranchCondition) (tracks : Nat) :
    Except Fault (Comparison × List (Option String)) :=
  match condition.operator, condition.compareValue with
  | "equals", .text value =>
    if tracks == 2 then .ok (.equals, [some value, none]) else .error .missingItem
  | "not_equals", .text value =>
    if tracks == 2 then .ok (.notEquals, [none, some value]) else .error .missingItem
  | "in", value =>
    match value.texts? with
    | some values =>
      if values.length + 1 == tracks then .ok (.oneOf, values.map some ++ [none])
      else .error .missingItem
    | none => .error (.noItems value.shape)
  | _, value => .error (.noItems value.shape)

/-- The token that a branch tests. -/
def fieldOf (condition : BranchCondition) : Except Fault String :=
  match Template.branchField? condition.variableRef with
  | some field => .ok field
  | none => .error (.noText .null)

/-! ## Steps -/

mutual

/-- A planned step. -/
def stepOf (keys : Entries String) : Casework.Step → Except Fault Step
  | .standard head actions advancement => do
    let actions ← actions.mapM (actionOf keys)
    let wait ← waitOf advancement actions
    pure (.standard head actions wait)
  | .branch head condition tracks => do
    let field ← fieldOf condition
    let (comparison, guards) ← guardsOf condition tracks.length
    let tracks ← tracksOf keys guards tracks
    pure (.branch head field comparison tracks)

/-- Planned steps. -/
def stepsOf (keys : Entries String) : List Casework.Step → Except Fault (List Step)
  | [] => .ok []
  | step :: rest => do
    let step ← stepOf keys step
    let rest ← stepsOf keys rest
    pure (step :: rest)

/-- Planned tracks with their values. -/
def tracksOf (keys : Entries String) (guards : List (Option String)) :
    List Casework.Track → Except Fault (List Track)
  | [] => .ok []
  | .mk _ _ steps :: rest => do
    if steps.isEmpty then throw .missingItem
    let planned ← stepsOf keys steps
    let rest ← tracksOf keys (guards.drop 1) rest
    pure (.mk (guards.head?.join) planned :: rest)

end

end Plan

/-- A planned definition. -/
structure Plan where
  trigger : Trigger
  contactRequired : Bool
  steps : List Plan.Step

/-- The plan of a definition. -/
def Plan.ofDefinition (d : Definition) : Except Fault Plan := do
  let steps ← stepsOf (Template.keysOf d.vars) d.steps
  pure ⟨d.trigger, d.contactRequired, steps⟩

end Casework
