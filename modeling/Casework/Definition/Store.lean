/-
  Casework.Definition.Store

  Definitions in the store: putting submitted ones, and looking them up.
-/
import Casework.Definition.Record
import Casework.Store.Session

namespace Casework

/-- A definition as it was submitted, with what stands for its absent parts. -/
structure DefinitionDraft where
  id : Json
  name : Json
  description : Json
  trigger : Json
  contactRequired : Bool
  statuses : Json
  phases : Json
  vars : Json
  steps : Json

namespace DefinitionDraft

/-- The name of a definition that has none. -/
def untitled : Json := .text "Untitled workflow"

/-- The definition that a payload submits. -/
def ofPayload (payload : Fields) : DefinitionDraft where
  id := (payload.value "id").orElse .null
  name := (payload.value "name").orElse untitled
  description := payload.value "description"
  trigger := (payload.value "trigger").orElse DefinitionRecord.manualTrigger
  contactRequired :=
    match payload.get? "contactRequired" with
    | some (.bool false) => false
    | _ => true
  statuses := (payload.value "statuses").orElse (.list [])
  phases := (payload.value "phases").orElse (.list [])
  vars := (payload.value "variables").orElse (.list [])
  steps := (payload.value "steps").orElse (.list [])

/-- The record that the store keeps of a draft. -/
def record (d : DefinitionDraft) (id org : Json) (moment : Moment) :
    Except StoreFault DefinitionRecord := do
  let id ← Column.text id
  let org ← Column.text org
  let name ← Column.text d.name
  let description ← Column.text d.description
  pure {
    id := ← Column.required id
    org := ← Column.required org
    name := ← Column.required name
    version := 1
    trigger := d.trigger
    contactRequired := d.contactRequired
    statuses := d.statuses
    phases := d.phases
    vars := d.vars
    steps := d.steps
    created := moment
    updated := moment
    description }

/-- The row of a draft as it was submitted. -/
def row (d : DefinitionDraft) (r : DefinitionRecord) : Fields :=
  ((r.row.put "id" d.id).put "name" d.name).put "description" d.description

/-- A draft in the editor's form. -/
def authored (d : DefinitionDraft) (r : DefinitionRecord) : Json :=
  match r.authored with
  | .object fields =>
    .object (((fields.put "id" d.id).put "name" d.name).put "description" d.description)
  | j => j

end DefinitionDraft

namespace Store

/-- Puts a submitted definition; the draft with its id, and the record. -/
def createDefinition (org : Json) (payload : Fields) : Tx (DefinitionDraft × DefinitionRecord) := do
  let draft := DefinitionDraft.ofPayload payload
  let id ← identify .definition draft.id
  let draft := { draft with id }
  let record ← liftColumn (draft.record id org (← bareNow))
  add record
  pure (draft, record)

/-- The definition with an id in an organization. -/
def definition? (id org : String) : Tx (Option DefinitionRecord) := find? id org

end Store
end Casework
