/-
  Casework.Program.StoredStep

  Steps of stored programs: an id and a kind, a label, a configuration and a phase, each of any
  form. Reading one fills in what is missing and leaves out what does not belong to a step. Whether
  the decision about a task needs a comment is told by the stored step that created the task.
-/
import Casework.Json.Key

namespace Casework

/-- A step as it is stored. -/
structure StoredStep where
  id : Json
  kind : Json
  label : Json
  config : Fields
  phase : Json
  deriving Repr

namespace StoredStep

/-- The step that a document describes. -/
def ofJson (j : Json) : Except Fault StoredStep := do
  let id ← j.requiredField "id"
  let kind ← j.requiredField "type"
  let fields := j.object?.getD .empty
  let config ← (fields.value "config").mappingOf
  pure {
    id, kind, config
    label := (fields.get? "label").getD (.text "")
    phase := fields.value "phaseId" }

/-- A step as a document. -/
def toJson (s : StoredStep) : Json :=
  .object <|
    (Entries.mk [
      ("id", s.id), ("type", s.kind), ("label", s.label), ("config", .object s.config)]).putSome
        "phaseId" (if s.phase.isNull then none else some s.phase)

end StoredStep
end Casework

/-! ## Comments on decisions -/

namespace Casework.Task

/-- Whether a step is the one with this id that creates a task. -/
def isCreator (id step : Json) : Except Fault Bool := do
  let other ← step.fieldOf "id"
  pure (other.same id && (step.field "type").isTextOf "assign_task")

/-- The first step with this id that creates a task. -/
def creator? (id : Json) : List Json → Except Fault (Option Json)
  | [] => .ok none
  | step :: rest => do
    if ← isCreator id step then pure (some step) else creator? id rest

/-- Whether the decision about the task that a step created needs a comment. -/
def requiresComment (steps id : Json) : Except Fault Bool :=
  if !steps.truthy || !id.truthy then .ok false
  else do
    match ← creator? id (← steps.itemsOf) with
    | none => pure false
    | some step =>
      let required ← ((step.field "config").orElse (.obj [])).fieldOf "requireComment"
      pure required.truthy

end Casework.Task
