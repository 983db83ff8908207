/-
  Casework.Definition.Reading

  Reading definitions from documents. Statuses, phases and variables are read leniently: entries
  of the wrong form are left out and the rest is put in order. Steps are read strictly: each part
  of the wrong form is an issue with its place, and a document with such issues is refused.
-/
import Casework.Definition.Basic
import Casework.Definition.Issue
import Casework.Number.Sorting
import Casework.Text.Blank

namespace Casework

/-! ## Lenient parts -/

/-- A text without surrounding blanks, if it holds anything else. -/
def Json.nonBlank? : Json → Option String
  | .text s =>
    let trimmed := Text.trim s
    if trimmed == "" then none else some trimmed
  | _ => none

namespace Status

/-- A status, if the document has a text id, a text label and a numeric order. -/
def ofJson? : Json → Option Status
  | .object fields => do
    let id ← (fields.value "id").text?
    let label ← (fields.value "label").text?
    let order ← (fields.value "order").number?
    some ⟨Text.trim id, Text.trim label, order, (fields.value "color").nonBlank?⟩
  | _ => none

/-- The well-formed statuses of a list, in order. -/
def listOfJson : Json → List Status
  | .list items => sortByOrder order (items.filterMap ofJson?)
  | _ => []

end Status

namespace Phase

/-- The phase that stands as number `index` in its list; whatever it lacks is made up from its
position. -/
def ofFields (index : Nat) (fields : Fields) : Phase where
  id := (fields.value "id").nonBlank?.getD ("phase_" ++ toString (index + 1))
  name := ((fields.value "name").nonBlank? <|> (fields.value "label").nonBlank?).getD
    ("Phase " ++ toString (index + 1))
  order := (fields.value "order").number?.getD (.whole index)
  color := (fields.value "color").text?

/-- The phases of a list, in order. -/
def listOfJson : Json → List Phase
  | .list items =>
    sortByOrder order <| (items.filterMap Json.object?).mapIdx ofFields
  | _ => []

end Phase

namespace Variable

/-- A variable, if the document has a text id, name and type and an object as source. -/
def ofJson? : Json → Option Variable
  | .object fields => do
    let id ← (fields.value "id").text?
    let name ← (fields.value "name").text?
    let kind ← (fields.value "type").text?
    let source ← (fields.value "source").object?
    some ⟨id, name, kind, source⟩
  | _ => none

/-- The well-formed variables of a list. -/
def listOfJson : Json → List Variable
  | .list items => items.filterMap ofJson?
  | _ => []

end Variable

namespace Trigger

/-- A manual trigger without an initial status. -/
def manual : Trigger := ⟨.manual, none⟩

/-- The kind of trigger that a word names. -/
def kindOf? (fields : Fields) : Option TriggerKind :=
  match fields.value "type" with
  | .text "manual" => some .manual
  | .text "contact_status" => some (.contactStatus ((fields.value "statusValue").text?.getD ""))
  | .text "form_submission" => some (.formSubmission ((fields.value "formId").text?.getD ""))
  | .text "api" => some .api
  | _ => none

/-- The trigger of a document, a manual one when its kind is unknown. -/
def ofJson : Json → Trigger
  | .object fields =>
    match kindOf? fields with
    | some kind => ⟨kind, (fields.value "initialStatus").nonBlank?⟩
    | none => manual
  | _ => manual

end Trigger

/-! ## Steps -/

/-- What reading a part gives: the part, and the issues met. -/
abbrev Read (α : Type) := α × List Issue

namespace Step

/-- An issue with a part of a step. -/
def issueAt (place : Place) (problem : Problem) (step : Option String := none) : Issue :=
  { problem, place, step }

/-- What every step has; a step without a name is named by its id. -/
def headOf (fields : Fields) : StepHead :=
  let id := (fields.value "id").text?.getD ""
  { id
    name := (fields.value "name").text?.getD id
    phase := (fields.value "phaseId").nonBlank? }

/-- The actions of a standard step. -/
def readActions (place : Place) (step : String) (index : Nat) : List Json → Read (List Action)
  | [] => ([], [])
  | .object fields :: rest =>
    let action : Action := {
      id := (fields.value "id").text?.getD ""
      kind := ((fields.value "type").orElse (.text "")).plain
      config := (fields.value "config").object?.getD .empty }
    let (actions, issues) := readActions place step (index + 1) rest
    (action :: actions, issues)
  | _ :: rest =>
    let (actions, issues) := readActions place step (index + 1) rest
    (actions, issueAt (place.item "actions" index) .actionNotObject step :: issues)

/-- The condition for going on, automatic where none can be read. -/
def readAdvancement (place : Place) (step : String) (j : Json) : Read Advancement :=
  match j with
  | .object fields =>
    match fields.value "type" with
    | .text kind => (⟨kind, (fields.value "config").object?.getD .empty⟩, [])
    | _ =>
      (⟨"automatic", .empty⟩, [issueAt (place.field "advancementCondition") .noAdvancement step])
  | _ => (⟨"automatic", .empty⟩, [issueAt (place.field "advancementCondition") .noAdvancement step])

/-- A standard step. -/
def readStandard (place : Place) (fields : Fields) : Read Step :=
  let head := headOf fields
  let (items, shape) : Read (List Json) := match fields.value "actions" with
    | .list items => (items, [])
    | _ => ([], [issueAt (place.field "actions") .actionsNotList head.id])
  let (advancement, missing) :=
    readAdvancement place head.id (fields.value "advancementCondition")
  let (actions, issues) := readActions place head.id 0 items
  (.standard head actions advancement, shape ++ missing ++ issues)

/-- The test of a branch step. -/
def readCondition (place : Place) (step : String) (j : Json) : Read BranchCondition :=
  let (fields, issues) : Read Fields := match j with
    | .object fields => (fields, [])
    | _ => (.empty, [issueAt (place.field "condition") .noBranchCondition step])
  ({ variableRef := (fields.value "variableRef").text?.getD ""
     operator := ((fields.value "operator").orElse (.text "")).plain
     compareValue := fields.value "compareValue" }, issues)

/-- The id and the label of a track; a track without an id gets one from its step. -/
def trackHead (step : String) (index : Nat) (fields : Fields) : String × String :=
  ( ((fields.value "id").orElse (.text (step ++ "_track_" ++ toString (index + 1)))).plain,
    ((fields.value "label").orElse (.text "")).plain )

mutual

/-- The steps at a place. -/
def readSteps (place : Place) (name : String) : Json → Read (List Step)
  | .list items => readItems place name 0 items
  | _ => ([], [issueAt (place.field name) .stepsNotList])

/-- The steps of a list, from position `index` on. -/
def readItems (place : Place) (name : String) (index : Nat) : List Json → Read (List Step)
  | [] => ([], [])
  | item :: rest =>
    let (step?, issues) := readStep (place.item name index) item
    let (steps, more) := readItems place name (index + 1) rest
    (step?.toList ++ steps, issues ++ more)

/-- One step. -/
def readStep (place : Place) : Json → Read (Option Step)
  | .object ⟨fields⟩ =>
    if (Entries.value ⟨fields⟩ "stepType").isTextOf "branch" then
      let head := headOf ⟨fields⟩
      let (condition, missing) := readCondition place head.id (Entries.value ⟨fields⟩ "condition")
      let (tracks, issues) := findTracks place head.id fields
      (some (.branch head condition tracks), missing ++ issues)
    else
      let (step, issues) := readStandard place ⟨fields⟩
      (some step, issues)
  | _ => (none, [issueAt place .stepNotObject])

/-- The tracks among the fields of a branch step. -/
def findTracks (place : Place) (step : String) : List (String × Json) → Read (List Track)
  | [] => ([], [issueAt (place.field "tracks") .tracksNotList step])
  | (name, value) :: rest =>
    if name == "tracks" then readTracks place step value else findTracks place step rest

/-- The tracks of a branch step. -/
def readTracks (place : Place) (step : String) : Json → Read (List Track)
  | .list items => readTrackItems place step 0 items
  | _ => ([], [issueAt (place.field "tracks") .tracksNotList step])

/-- The tracks of a list, from position `index` on. -/
def readTrackItems (place : Place) (step : String) (index : Nat) :
    List Json → Read (List Track)
  | [] => ([], [])
  | item :: rest =>
    let (track?, issues) := readTrack (place.item "tracks" index) step index item
    let (tracks, more) := readTrackItems place step (index + 1) rest
    (track?.toList ++ tracks, issues ++ more)

/-- One track. -/
def readTrack (place : Place) (step : String) (index : Nat) : Json → Read (Option Track)
  | .object ⟨fields⟩ =>
    let (id, label) := trackHead step index ⟨fields⟩
    let (steps, issues) := findSteps place fields
    (some (.mk id label steps), issues)
  | _ => (none, [issueAt place .trackNotObject step])

/-- The steps among the fields of a track, none when the field is absent. -/
def findSteps (place : Place) : List (String × Json) → Read (List Step)
  | [] => ([], [])
  | (name, value) :: rest =>
    if name == "steps" then readSteps place "steps" value else findSteps place rest

end
end Step

namespace Definition

/-- The definition of a document whose steps have been read. -/
def ofFields (fields : Fields) (steps : List Step) : Definition where
  id := ((fields.value "id").orElse (.text "")).plain
  name := ((fields.value "name").orElse (.text "")).plain
  description := (fields.value "description").text?
  trigger := Trigger.ofJson (fields.value "trigger")
  contactRequired := match fields.value "contactRequired" with
    | .bool b => b
    | _ => true
  statuses := Status.listOfJson (fields.value "statuses")
  vars := Variable.listOfJson (fields.value "variables")
  phases := Phase.listOfJson (fields.value "phases")
  steps

/-- The definition that a document describes, or the issues with its shape. -/
def ofJson : Json → Except CompileError Definition
  | .object fields =>
    let (steps, issues) := Step.findSteps .top fields.toList
    if issues.isEmpty then .ok (ofFields fields steps) else .error ⟨issues⟩
  | _ => .error ⟨[{ problem := .definitionNotObject, place := .top }]⟩

end Definition
end Casework
