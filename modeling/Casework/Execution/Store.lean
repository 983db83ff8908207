/-
  Casework.Execution.Store

  Executions in the store: putting new ones, looking them up, naming their runs, and reporting about
  them.
-/
import Casework.Execution.Report
import Casework.Store.Session

namespace Casework

/-- An execution that is not yet kept: what its columns are given. -/
structure ExecutionDraft where
  id : Json := .null
  definition : Json
  version : Json := .null
  contact : Json := .null
  status : Json
  steps : Json
  startedBy : Json := .null

/-- The execution that the store keeps of a draft. -/
def ExecutionDraft.execution (d : ExecutionDraft) (id org : Json) (moment : Moment) :
    Except StoreFault Execution := do
  let id ← Column.text id
  let org ← Column.text org
  let definition ← Column.text d.definition
  let version ← Column.whole (.int 1) d.version
  let contact ← Column.text d.contact
  let status ← Column.text d.status
  let startedBy ← Column.text d.startedBy
  pure {
    id := ← Column.required id
    org := ← Column.required org
    definition := ← Column.required definition
    status := ← Column.required status
    state := RunPhase.running.word
    steps := d.steps
    step := none
    workflow := none
    run := none
    details := .null
    started := moment
    completed := none
    updated := moment
    version, contact, startedBy }

namespace Store

/-- Puts a new execution; it is running. -/
def createExecution (org : Json) (d : ExecutionDraft) : Tx Execution := do
  let id ← identify .execution d.id
  let execution ← liftColumn (d.execution id org (← bareNow))
  add execution
  pure execution

/-- The execution with an id in an organization. -/
def execution? (id org : String) : Tx (Option Execution) := find? id org

/-- Names the run of the execution with an id in an organization. -/
def nameRun (id org workflow : String) (run : Option String) : Tx Unit := do
  let moment ← bareNow
  change (Record.isOf id org) fun e : Execution =>
    { e with workflow := some workflow, run, updated := moment }

/-- Reports about the execution with an id in an organization; the execution afterwards. -/
def reportExecution (id org : Json) (r : Execution.Report) : Tx (Option Execution) := do
  match ← findBy? id org with
  | none => pure none
  | some e =>
    let e ← lift (r.apply (← bareNow) e)
    change (Record.isOf e.id e.org) fun _ : Execution => e
    pure (some e)

end Store
end Casework
