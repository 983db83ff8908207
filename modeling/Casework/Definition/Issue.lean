/-
  Casework.Definition.Issue

  What is wrong with a definition. Every problem is a cause of its own, from which the code and
  the message follow; an issue adds where the problem lies.
-/
import Casework.Definition.Place
import Casework.Json.Plain

namespace Casework

/-- A problem of a definition. -/
inductive Problem where
  -- the shape of the document
  | definitionNotObject
  | stepsNotList
  | stepNotObject
  | noBranchCondition
  | tracksNotList
  | trackNotObject
  | actionsNotList
  | noAdvancement
  | actionNotObject
  -- statuses
  | noStatuses
  | noStatusId
  | duplicateStatusId (id : String)
  | duplicateStatusOrder (order : Number)
  | undeclaredStatus (shown : String)
  | statusNotText
  -- ids
  | noStepId
  | duplicateStepId (id : String)
  | noActionId
  | duplicateActionId (id : String)
  -- actions
  | unsupportedAction (id kind : String)
  | notText (name : String)
  | notTexts (label : String)
  | noAssignee
  | unsupportedTaskType (shown : String)
  | dueDaysNotCount
  | unsupportedRecipients
  | unsupportedReferences (refs : List String)
  -- advancement
  | unsupportedAdvancement (kind : String)
  | taskActionNotText
  | notATaskAction (shown : String)
  -- branches
  | unsupportedOperator (operator : String)
  | fewerThanTwoTracks
  | notTwoTracks
  | compareValueNotTexts
  | compareValueCount (tracks : Nat)
  | compareValueNotText
  | branchVariableNotContact
  | emptyTrack
  deriving DecidableEq, Repr

namespace Problem

/-- The code of a problem. -/
def code : Problem → String
  | .noStatuses | .noStatusId | .duplicateStatusId _ | .duplicateStatusOrder _
  | .undeclaredStatus _ => "invalid_status"
  | .duplicateStepId _ => "duplicate_step_id"
  | .duplicateActionId _ => "duplicate_action_id"
  | .unsupportedAction .. => "unsupported_action"
  | .unsupportedReferences _ | .branchVariableNotContact => "unsupported_variable_reference"
  | .unsupportedAdvancement _ | .unsupportedOperator _ => "unsupported_advancement"
  | .notATaskAction _ => "invalid_advancement"
  | .fewerThanTwoTracks | .notTwoTracks | .compareValueNotTexts | .compareValueCount _
  | .compareValueNotText | .emptyTrack => "invalid_branch"
  | .definitionNotObject | .stepsNotList | .stepNotObject | .noBranchCondition | .tracksNotList
  | .trackNotObject | .actionsNotList | .noAdvancement | .actionNotObject | .statusNotText
  | .noStepId | .noActionId | .notText _ | .notTexts _ | .noAssignee | .unsupportedTaskType _
  | .dueDaysNotCount | .unsupportedRecipients | .taskActionNotText => "invalid_shape"

/-- The message of a problem. -/
def message : Problem → String
  | .definitionNotObject => "Definition must be an object."
  | .stepsNotList => "Steps must be a list."
  | .stepNotObject => "Step must be an object."
  | .noBranchCondition => "Branch condition is required."
  | .tracksNotList => "Branch tracks must be a list."
  | .trackNotObject => "Track must be an object."
  | .actionsNotList => "Step actions must be a list."
  | .noAdvancement => "Advancement condition is required."
  | .actionNotObject => "Action must be an object."
  | .noStatuses => "Workflow definition must include at least one status."
  | .noStatusId => "Status id is required."
  | .duplicateStatusId id => "Duplicate status id \"" ++ id ++ "\"."
  | .duplicateStatusOrder order => "Duplicate status order \"" ++ order.plain ++ "\"."
  | .undeclaredStatus shown => "Status \"" ++ shown ++ "\" is not defined on this workflow."
  | .statusNotText => "Status must be a status id."
  | .noStepId => "Step id is required."
  | .duplicateStepId id => "Duplicate step id \"" ++ id ++ "\"."
  | .noActionId => "Action id is required."
  | .duplicateActionId id => "Duplicate action id \"" ++ id ++ "\"."
  | .unsupportedAction id kind =>
    "Action \"" ++ id ++ "\" has type \"" ++ kind
      ++ "\", which is not supported by the runtime compiler."
  | .notText name => "\"" ++ name ++ "\" must be text."
  | .notTexts label => label ++ " must be a list of strings."
  | .noAssignee => "Create Task must assign to a role or a user."
  | .unsupportedTaskType shown => "Task type \"" ++ shown ++ "\" is not supported."
  | .dueDaysNotCount => "Due days must be a non-negative whole number."
  | .unsupportedRecipients => "Notification recipients must be organization, user, role or group."
  | .unsupportedReferences refs =>
    "Unsupported variable reference(s): " ++ ", ".intercalate refs ++ "."
  | .unsupportedAdvancement kind =>
    "Advancement condition \"" ++ kind ++ "\" is not supported by the runtime compiler."
  | .taskActionNotText => "Task advancement must reference a Create Task action id."
  | .notATaskAction shown =>
    "Task advancement references \"" ++ shown
      ++ "\", which is not a Create Task action in the same step."
  | .unsupportedOperator operator =>
    "Branch operator \"" ++ operator ++ "\" is not supported by the runtime compiler."
  | .fewerThanTwoTracks => "Branch steps must contain at least two tracks."
  | .notTwoTracks => "Branch steps must contain exactly two tracks."
  | .compareValueNotTexts =>
    "Branch compare value must be a list of strings for the 'in' operator."
  | .compareValueCount tracks =>
    "Branch with " ++ toString tracks ++ " tracks needs " ++ toString (tracks - 1)
      ++ " compare values (the last track is the default)."
  | .compareValueNotText => "Branch compare value must be a string."
  | .branchVariableNotContact =>
    "Branch condition variable must be a contact variable reference "
      ++ "(for example: var-contact.email)."
  | .emptyTrack => "Each branch track must contain at least one step."

end Problem

/-- A problem, where it lies, and the step and the action it belongs to. -/
structure Issue where
  problem : Problem
  place : Place
  step : Option String := none
  action : Option String := none
  deriving DecidableEq, Repr

/-- An issue as a document; the step and the action appear only when there are any. -/
def Issue.toJson (issue : Issue) : Json :=
  .object <|
    ((Entries.ofList [
      ("code", .text issue.problem.code),
      ("path", .text issue.place.render),
      ("message", .text issue.problem.message)]).putSome
        "step_id" (issue.step.map .text)).putSome
        "action_id" (issue.action.map .text)

/-- The reason why a definition cannot become a program: its issues. -/
structure CompileError where
  issues : List Issue
  deriving DecidableEq, Repr

namespace CompileError

/-- What every refused definition is told. -/
def heading : String := "Authoring validation failed"

/-- The heading and the messages of the first three issues. -/
def message (e : CompileError) : String :=
  heading ++ ": " ++ "; ".intercalate ((e.issues.take 3).map fun issue => issue.problem.message)

/-- The heading and all issues, as a document. -/
def toJson (e : CompileError) : Json :=
  .obj [("error", .text heading), ("issues", .list (e.issues.map Issue.toJson))]

end CompileError
end Casework
