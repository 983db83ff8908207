/-
  Casework.Definition.Record

  Definitions as they are kept: the parts that the editor stores, each as the document it is. A kept
  definition is shown to the editor in the form in which it was submitted.
-/
import Casework.Contact.Basic
import Casework.Definition.Basic

namespace Casework

/-- A kept definition. -/
structure DefinitionRecord where
  id : String
  org : String
  name : String
  description : Option String
  version : Nat
  trigger : Json
  contactRequired : Bool
  statuses : Json
  phases : Json
  vars : Json
  steps : Json
  created : Moment
  updated : Moment
  deriving Repr

namespace DefinitionRecord

/-- Everything kept about a definition. -/
def row (d : DefinitionRecord) : Fields := ⟨[
  ("id", .text d.id), ("org_id", .text d.org), ("name", .text d.name),
  ("description", .optText d.description), ("version", .nat d.version), ("trigger", d.trigger),
  ("contact_required", .bool d.contactRequired), ("statuses", d.statuses), ("phases", d.phases),
  ("variables", d.vars), ("steps", d.steps), ("created_at", d.created.toJson),
  ("updated_at", d.updated.toJson)]⟩

/-- The trigger of a definition that names none. -/
def manualTrigger : Json := .obj [("type", .text "manual")]

/-- The definition in the editor's form. -/
def authored (d : DefinitionRecord) : Json := .obj [
  ("id", .text d.id), ("name", .text d.name), ("description", .optText d.description),
  ("trigger", d.trigger.orElse manualTrigger), ("contactRequired", .bool d.contactRequired),
  ("statuses", d.statuses.orElse (.list [])), ("phases", d.phases.orElse (.list [])),
  ("variables", d.vars.orElse (.list [])), ("steps", d.steps.orElse (.list []))]

end DefinitionRecord
end Casework
