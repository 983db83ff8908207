/-
  Casework.Execution.Trigger

  Starting an execution of a kept definition. The execution is kept before the engine is asked to
  run it; if the engine does not, the execution is marked as failed, so that none stays running
  without a run.
-/
import Casework.Access.Context
import Casework.Audit.Store
import Casework.Contact.Store
import Casework.Definition.Store
import Casework.Execution.Status
import Casework.Execution.Store
import Casework.Program.Lowering

namespace Casework

/-- A definition that is ready to be run. -/
structure Runnable where
  record : DefinitionRecord
  definition : Definition
  program : Program

namespace Trigger

/-- A result of compiling, as one that may fail. -/
def compiled {α : Type} : Except Refusal α → Except Failure α
  | .ok a => .ok a
  | .error (.issues e) => .error (.issues e)
  | .error (.fault f) => .error (.fault f)

/-- A result of reading a definition, as one that may fail. -/
def read {α : Type} : Except CompileError α → Except Failure α
  | .ok a => .ok a
  | .error e => .error (.issues e)

/-- The kept definition with an id in an organization, compiled. -/
def prepare (id org : String) : Tx Runnable := do
  match ← Store.definition? id org with
  | none => throw (.notFound "Workflow definition not found")
  | some record =>
    let definition ← Store.lift (read (Definition.ofJson record.authored))
    let program ← Store.lift (compiled definition.compile)
    pure { record, definition, program }

/-- The contact that an execution is about. -/
def contactFor (d : Definition) (org : String) (contact : Option String) :
    Tx (Option Contact) := do
  match contact with
  | none | some "" =>
    if d.contactRequired then throw (.invalid "contact_id is required for this workflow")
    else pure none
  | some id =>
    match ← Store.contact? id org with
    | none => throw (.notFound "Contact not found")
    | some contact => pure (some contact)

/-- What a run is given. -/
def params (r : Runnable) (e : Execution) (contact : Option Contact) : Json := .obj [
  ("workflow_execution_id", .text e.id), ("org_id", .text e.org),
  ("contact", .object ((contact.map Contact.told).getD .empty)),
  ("steps", r.program.toJson),
  ("statuses", .texts (r.definition.statuses.map Status.id)),
  ("variables", r.record.vars.orElse (.list [])),
  ("workflow", .obj [("id", .text r.record.id), ("name", .text r.record.name),
    ("executionId", .text e.id)]),
  ("initial_status", .text r.definition.initialStatus)]

/-- The status of an execution that could not be started: `failed` if it is declared. -/
def failedStatus (d : Definition) : String :=
  if (d.statuses.map Status.id).contains "failed" then "failed" else d.initialStatus

/-- Marks an execution as failed because it could not be started. -/
def compensate (d : Definition) (e : Execution) (error : String) : Tx Unit := do
  discard <| Store.reportExecution (.text e.id) (.text e.org) {
    status := .text (failedStatus d)
    state := .text RunPhase.error.word
    completed := true
    details := .obj [("triggerError", .text error)] }
  Store.commit

/-- Starts an execution of the definition with an id for an actor, about a contact if one is given;
the execution as it is shown. -/
def trigger (definition : String) (actor : AccessContext) (contact : Option String) :
    Tx Execution := do
  let runnable ← prepare definition actor.org
  let contact ← contactFor runnable.definition actor.org contact
  let execution ← Store.createExecution (.text actor.org) {
    definition := .text runnable.record.id
    version := .nat runnable.record.version
    contact := .optText (contact.map Contact.id)
    status := .text runnable.definition.initialStatus
    steps := runnable.program.toJson
    startedBy := .text actor.user }
  Store.commit
  Store.holding <| Store.record actor.org (some actor.user) "workflow" execution.id "created" <|
    .obj [
      ("definitionName", .text runnable.record.name), ("contactId", .optText execution.contact),
      ("source", .text "trigger_api")]
  let given := params runnable execution contact
  match ← Store.ask fun engine => engine.start execution.id given with
  | .error error =>
    compensate runnable.definition execution error
    throw (.integration ("Failed to start workflow: " ++ error))
  | .ok () =>
    let workflow := Engine.workflowOf execution.id
    let run := Engine.firstTry workflow
    Store.nameRun execution.id actor.org workflow (some run)
    Store.commit
    pure { execution with workflow := some workflow, run := some run, started := ← Store.now }

end Trigger
end Casework
