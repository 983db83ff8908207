/-
  Casework.Run.Interpreter

  Running a stored program. Steps are carried out one after the other: tasks are created and waited
  for, mail is sent, notices are given, the status is set. A run ends when it goes past the last
  step, when a wait takes too long, or when something fails; in each case it reports how it ended.
  A run carries out at most a fixed number of steps.
-/
import Casework.Execution.Status
import Casework.Program.Instruction
import Casework.Program.Walk
import Casework.Run.State

namespace Casework.Run

/-- The most steps that a run carries out. -/
def stepLimit : Nat := 1000

/-- How long a decision is waited for after its task is completed, in seconds. -/
def graceSeconds : Int := 60

/-- Actions of a run, which change its state and can fail. -/
abbrev Act (σ : Type) := ExceptT Failure (StateM (RunState σ))

variable {σ : Type}

/-- An action that has a fault or a result. -/
def lift {α : Type} (result : Except Fault α) : Act σ α :=
  match result with
  | .ok a => pure a
  | .error f => throw (.fault f)

/-- What every activity of a run is told: the execution and the organization. -/
structure Base where
  execution : Json
  org : Json

/-- The parameters of an activity. -/
def Base.params (base : Base) (more : List (String × Json)) : Fields :=
  (Entries.mk [("workflow_execution_id", base.execution), ("org_id", base.org)]).putAll more

/-- Has work done outside. Whatever fails there, the run only sees that the work failed. A message
at fault that comes in meanwhile does not stop the work. -/
def perform (world : World σ) (activity : Activity) (params : Fields) : Act σ Json := do
  let s ← get
  let call : Call := ⟨activity, params⟩
  let (result, outside) := world.perform call s.outside
  let (signals, outside) := world.arrive outside
  let s := { s with outside, inbox := (s.inbox.receiveAll signals).1 }
  match result with
  | .ok answer =>
    set (s.note (.called call none))
    pure answer
  | .error failure =>
    set (s.note (.called call (some failure)))
    throw .activity

/-- Reports about the run. -/
def report (world : World σ) (base : Base) (changes : List (String × Json)) : Act σ Unit :=
  discard (perform world .setState (base.params changes))

/-- The rendered text of a document that is a text, else nothing. -/
def rendered (j : Json) : Act σ String := do
  let s ← get
  pure (Template.render (j.text?.getD "") s.vars)

/-- Waits until the inbox fulfils a condition, at most for some seconds; tells whether it does. A
message at fault that comes in meanwhile breaks the wait off. -/
def await (world : World σ) (seconds : Int) (holds : Inbox → Bool) : Act σ Bool := do
  let s ← get
  if holds s.inbox then
    set (s.note (.waited seconds .immediate none))
    pure true
  else
    let (signals, outside) := world.deliver s.outside
    let (inbox, received) := s.inbox.receiveAll signals
    let s := { s with outside, inbox }
    match received with
    | .ok () =>
      let result := if holds inbox then WaitResult.signaled else .timeout
      set (s.note (.waited seconds result (some s.snapshot)))
      pure (holds inbox)
    | .error fault =>
      set (s.note (.interrupted seconds))
      throw (.fault fault)

/-- Puts a value under a path. -/
def setVariable (path : String) (value : Json) : Act σ Unit :=
  modify fun s => { s with vars := s.vars.put path value }

/-- The path of something about the task that a step created. -/
def taskPath (step : Json) (name : String) : String := step.plain ++ "." ++ name

/-- The configuration of a step that creates a task, its texts rendered. -/
def renderedTask (config : Json) : Act σ Fields := do
  let fields ← match config with
    | .object fields => pure fields
    | j => throw (.fault (.noMapping j.shape))
  let title ← rendered (fields.value "title")
  let links ← lift (fields.value "links").givenItemsOf
  let links ← links.mapM fun link => rendered link
  let told := (fields.put "title" (.text title)).put "links" (.texts links)
  if (fields.value "description").truthy then
    pure (told.put "description" (.text (← rendered (fields.value "description"))))
  else pure told

/-- Creates the task of a step. -/
def createTask (world : World σ) (base : Base) (contact step config : Json) : Act σ Unit := do
  let task ← renderedTask config
  let result ← perform world .createTask <| base.params [
    ("contact_id", contact), ("step_id", step), ("config", .object task)]
  let id ← lift (result.requiredField "taskId")
  setVariable (taskPath step "taskId") id
  let key ← lift id.key
  modify fun s =>
    { s with taskKinds := s.taskKinds.put key ((task.value "taskType").orElse (.text "standard")) }

/-- Sends the e-mail of a step. -/
def sendMail (world : World σ) (base : Base) (config : Json) : Act σ Unit := do
  let recipient ← rendered (← lift (config.fieldOf "to"))
  let subject ← rendered (config.field "subject")
  let body ← rendered (config.field "body")
  let sender ← rendered (config.field "from")
  discard <| perform world .sendMail <| base.params [
    ("to", .text recipient), ("subject", .text subject), ("body", .text body),
    ("from", .text sender)]

/-- Gives the notice of a step. -/
def notify (world : World σ) (base : Base) (config : Json) : Act σ Unit := do
  let recipients ← lift (config.fieldOf "recipients")
  let s ← get
  let audience ← lift (Audience.rendered (recipients.orElse (.obj [])) s.vars)
  let title ← rendered (config.field "title")
  let message ← rendered (config.field "message")
  discard <| perform world .notify <| base.params [
    ("recipients", audience.toJson), ("title", .text title), ("message", .text message)]

/-- Takes over what was decided about a task. -/
def takeDecision (creator : Json) (approval : Fields) : Act σ Unit := do
  setVariable (taskPath creator "outcome") ((approval.value "outcome").orElse (.text ""))
  setVariable (taskPath creator "comment") ((approval.value "comment").orElse (.text ""))
  setVariable (taskPath creator "approvedBy") ((approval.value "approvedBy").orElse (.text ""))

/-- Ends the run because a task was waited for too long. -/
def timeOut (world : World σ) (base : Base) (statuses task : Json) : Act σ Unit := do
  modify fun s => { s with phase := .timeout }
  let status ← lift (systemStatus "timeout" statuses)
  report world base [
    ("status", .optText status), ("execution_state", .text RunPhase.timeout.word),
    ("completed", .bool true), ("details", .obj [("timedOutTaskId", task)])]

/-- Waits for the task that a step created; tells whether that ended the run. -/
def awaitTask (world : World σ) (base : Base) (statuses step config : Json) : Act σ Bool := do
  let creator ← lift (config.fieldOf "taskStepId")
  let s ← get
  let task := s.vars.value (taskPath creator "taskId")
  if !task.truthy then
    throw <| .application
      ("wait_for_task " ++ step.plain ++ " references " ++ creator.plain
        ++ " which created no task") true
  report world base [("current_step_id", step)]
  let days ← lift ((config.field "timeoutDays").orElse (.int 1)).wholeOf
  let days ← lift (durationDays (max days 1))
  let key ← lift task.key
  if ← await world (days * 86400) (·.hasCompleted key) then
    let s ← get
    if ((s.taskKinds.get? key).getD .null).isTextOf "approval"
        && (s.inbox.approval? key).isNone then
      discard (await world graceSeconds fun inbox => (inbox.approval? key).isSome)
    let s ← get
    match s.inbox.approval? key with
    | some approval => if approval.isEmpty then pure () else takeDecision creator approval
    | none => pure ()
    pure false
  else
    timeOut world base statuses task
    pure true

/-- Carries out a step; tells whether that ended the run. -/
def execute (world : World σ) (base : Base) (contact statuses step : Json) : Act σ Bool := do
  let kind ← lift (step.fieldOf "type")
  let config := (step.field "config").orElse (.obj [])
  let id := step.field "id"
  match kind with
  | .text "assign_task" => createTask world base contact id config; pure false
  | .text "wait_for_task" => awaitTask world base statuses id config
  | .text "update_status" => do
    let status ← lift (config.fieldOf "status")
    report world base [("status", status), ("current_step_id", id)]
    pure false
  | .text "send_email" => sendMail world base config; pure false
  | .text "notification" => notify world base config; pure false
  | _ => pure false

/-- Carries out the steps from position `index` on, at most `left` more of them; tells whether one
of them ended the run. -/
def interpret (world : World σ) (base : Base) (contact statuses : Json) (steps : List Json)
    (table : Table Nat) : Nat → Nat → Act σ Bool
  | left, index =>
    match steps[index]? with
    | none => pure false
    | some step =>
      match left with
      | 0 =>
        throw <| .application
          ("Execution exceeded " ++ toString stepLimit ++ " interpreted steps") true
      | left + 1 => do
        let id ← lift (step.requiredField "id")
        modify fun s => { s with step := id, stepsRun := s.stepsRun + 1 }
        if ← execute world base contact statuses step then pure true
        else do
          let s ← get
          let following ← lift (Walk.next step index table s.vars)
          interpret world base contact statuses steps table left following

/-- Ends the run past the last step. -/
def complete (world : World σ) (base : Base) (statuses : Json) : Act σ Unit := do
  modify fun s => { s with phase := .completed }
  let status ← lift (systemStatus "completed" statuses)
  report world base [
    ("status", .optText status), ("execution_state", .text RunPhase.completed.word),
    ("completed", .bool true)]

/-- Reports that the run failed. -/
def reportFailure (world : World σ) (base : Base) (statuses : Json) (failure : Failure) :
    Act σ Unit := do
  modify fun s => { s with phase := .error }
  let status ← lift (systemStatus "failed" statuses)
  let s ← get
  report world base [
    ("status", .optText status), ("execution_state", .text RunPhase.error.word),
    ("completed", .bool true),
    ("details", .obj [("error", .text failure.message), ("failedStepId", s.step)])]

/-- What the run shows of itself. -/
def present : Act σ Json := do
  let s ← get
  lift s.toJson

/-- A program that is ready to run. -/
structure Setup where
  base : Base
  contact : Json
  statuses : Json
  steps : List Json
  table : Table Nat

/-- Prepares a run: finds what is needed before the first step, and puts the first variables. -/
def setup (params : Fields) : Act σ Setup := do
  let execution ← lift ((Json.object params).requiredField "workflow_execution_id")
  let org ← lift ((Json.object params).requiredField "org_id")
  let contactFields ← lift ((params.value "contact").givenFields "get")
  let vars ← lift <| Variables.initial (params.value "contact")
    ((params.value "variables").orElse (.list [])) (params.value "workflow")
  modify fun s => { s with vars }
  let steps ← lift (params.value "steps").givenItemsOf
  let table ← lift (Walk.gotoTable steps)
  pure {
    base := ⟨execution, org⟩
    contact := contactFields.value "id"
    statuses := params.value "statuses"
    steps, table }

/-- Carries out a program that is ready. -/
def body (world : World σ) (s : Setup) : Act σ Json := do
  let ended ← interpret world s.base s.contact s.statuses s.steps s.table stepLimit 0
  if !ended then complete world s.base s.statuses
  present

/-- Runs a stored program with its parameters. A failure after the first step has begun is reported
before the run fails with it. -/
def run (world : World σ) (params : Fields) : Act σ Json := do
  let s ← setup params
  tryCatch (body world s) fun failure => do
    reportFailure world s.base s.statuses failure
    throw failure

end Casework.Run
