/-
  Casework.Execution.Report

  Reports about an execution: a new status, how far the run is, the present step, and details, which
  are joined to the ones known before. What a report leaves open stays as it is.
-/
import Casework.Execution.Basic
import Casework.Store.Column

namespace Casework.Execution

/-- A report. Null leaves a value as it is. -/
structure Report where
  status : Json := .null
  state : Json := .null
  step : Json := .null
  completed : Bool := false
  details : Json := .null

namespace Report

/-- The known details joined with new ones. -/
def joined (known new : Json) : Except Fault Json :=
  if !new.truthy then .ok known
  else match new with
    | .object fields =>
      .ok (.object (((known.object?).getD .empty).putAll fields.toList))
    | j => .error (.noMapping j.shape)

/-- The execution after a report at a moment. -/
def apply (r : Report) (moment : Moment) (e : Execution) : Except Failure Execution := do
  let details ← Failure.ofFault (joined e.details r.details)
  Failure.ofStore do
    let status ← Column.text r.status
    let state ← Column.text r.state
    let step ← Column.text r.step
    pure { e with
      status := status.getD e.status
      state := state.getD e.state
      step := step.orElse fun _ => e.step
      completed := if r.completed then some moment else e.completed
      updated := moment
      details := Column.document e.details details }

end Report
end Casework.Execution
