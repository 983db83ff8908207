/-
  Casework.Program.Walk

  Walking through a stored program. A condition goes to the step its field selects, if there is such
  a step; every other step goes on to the next one. Stored programs are documents, since a run reads
  them back from the store, so their parts can have any form.
-/
import Casework.Json.Key
import Casework.Program.Variables
import Casework.Template.Token

namespace Casework.Walk

/-- The positions of steps under their ids; of two steps with one id the later counts. -/
def gotoTable (steps : List Json) : Except Fault (Table Nat) :=
  Prod.fst <$> steps.foldlM (fun (table, index) step => do
    let id ← step.requiredField "id"
    let key ← id.key
    .ok (table.put key index, index + 1)) (([] : Table Nat), 0)

/-- The target of the first branch that has the value. -/
def branchTarget? (value : String) : List Json → Except Fault (Option Json)
  | [] => .ok none
  | branch :: rest => do
    let candidate ← branch.fieldOf "value"
    if candidate.isTextOf value then pure (some (branch.field "gotoStepId"))
    else branchTarget? value rest

/-- The target that a condition's configuration selects; null when there is none. -/
def conditionTarget (config : Json) (vars : Variables) : Except Fault Json := do
  let field ← config.fieldOf "field"
  let value ← Template.renderJson field vars
  let branches ← (config.field "branches").givenItemsOf
  match ← branchTarget? value branches with
  | some target => pure target
  | none => pure (config.field "defaultGotoStepId")

/-- Where a step jumps to, if it does. -/
def jump? {α : Type} (step : Json) (table : Table α) (vars : Variables) :
    Except Fault (Option α) := do
  let kind ← step.fieldOf "type"
  if kind.isTextOf "condition" then
    match ← conditionTarget ((step.field "config").orElse (.obj [])) vars with
    | .null => pure none
    | target => table.get? <$> target.key
  else pure none

/-- The position of the step after the one at `index`. -/
def next (step : Json) (index : Nat) (table : Table Nat) (vars : Variables) :
    Except Fault Nat :=
  (fun target => target.getD (index + 1)) <$> jump? step table vars

/-- The ids of the steps visited from position `index` on, at most `limit` of them. -/
def visited (steps : List Json) (table : Table Nat) (vars : Variables) :
    Nat → Nat → Except Fault (List Json)
  | 0, _ => .ok []
  | limit + 1, index =>
    match steps[index]? with
    | none => .ok []
    | some step => do
      let following ← next step index table vars
      let rest ← visited steps table vars limit following
      pure (step.field "id" :: rest)

end Casework.Walk
