/-
  Casework.Execution.Basic

  Executions: one run of a definition for an organization, with the program as it was when the run
  was started. The status is the organization's own word; the state says how far the run is.
-/
import Casework.Contact.Basic
import Casework.Run.State

namespace Casework

/-- An execution. -/
structure Execution where
  id : String
  org : String
  definition : String
  version : Json
  contact : Option String
  status : String
  state : String
  /-- The program. -/
  steps : Json
  step : Option String
  startedBy : Option String
  /-- The run, by the name that the engine knows it by. -/
  workflow : Option String
  run : Option String
  details : Json
  started : Moment
  completed : Option Moment
  updated : Moment
  deriving Repr

namespace Execution

/-- Everything kept about an execution. -/
def row (e : Execution) : Fields := ⟨[
  ("id", .text e.id), ("org_id", .text e.org), ("workflow_definition_id", .text e.definition),
  ("definition_version", e.version), ("contact_id", .optText e.contact),
  ("status", .text e.status), ("execution_state", .text e.state), ("compiled_steps", e.steps),
  ("current_step_id", .optText e.step), ("started_by", .optText e.startedBy),
  ("temporal_workflow_id", .optText e.workflow), ("temporal_run_id", .optText e.run),
  ("metadata", e.details), ("started_at", e.started.toJson),
  ("completed_at", Moment.optJson e.completed), ("updated_at", e.updated.toJson)]⟩

/-- An execution as it is shown. -/
def shown (e : Execution) : Fields := ⟨[
  ("id", .text e.id), ("org_id", .text e.org), ("workflow_definition_id", .text e.definition),
  ("definition_version", e.version), ("contact_id", .optText e.contact),
  ("status", .text e.status), ("execution_state", .text e.state),
  ("current_step_id", .optText e.step), ("temporal_workflow_id", .optText e.workflow),
  ("temporal_run_id", .optText e.run), ("metadata", e.details.orElse (.obj [])),
  ("started_at", e.started.toJson), ("completed_at", Moment.optJson e.completed)]⟩

end Execution
end Casework
