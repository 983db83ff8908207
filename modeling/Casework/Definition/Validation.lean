/-
  Casework.Definition.Validation

  What stands in the way of turning a definition into a program. All issues are found, in the order
  of the document: statuses, the trigger, then the steps with their actions, conditions and tracks.
  Ids of steps and actions must differ in the whole definition, so those met before are carried
  along.
-/
import Casework.Definition.Basic
import Casework.Definition.Issue
import Casework.Template.Resolution

namespace Casework

/-- The action kinds that a program can have. -/
def supportedActions : List String := ["create_task", "send_email", "update_status", "notification"]

/-- The kinds of task. -/
def taskKinds : List String := ["standard", "approval"]

/-- The kinds of recipients that a notification can have. -/
def recipientKinds : List String := ["organization", "user", "role", "group"]

/-- Whether a document is one of some texts. -/
def Json.isOneOf (j : Json) (texts : List String) : Bool := j.text?.any texts.contains

/-- The texts of a list that holds texts only. -/
def Json.texts? : Json → Option (List String)
  | .list items => items.mapM text?
  | _ => none

/-- A count of days: a natural number that is written as a whole one. -/
def Json.count? : Json → Option Nat
  | .number (.whole (.ofNat n)) => some n
  | _ => none

namespace Validation

/-- What the parts of a definition are checked against. -/
structure Scope where
  statusIds : List String
  keys : Entries String

/-- The scope of a definition. -/
def Scope.of (d : Definition) : Scope := ⟨d.statusIds, Template.keysOf d.vars⟩

/-- The ids met so far. -/
structure Seen where
  steps : List String
  actions : List String

/-! ## Statuses and the trigger -/

/-- The issues with a status that stands at position `index`. -/
def statusIssues (ids : List String) (orders : List Number) (index : Nat) (s : Status) :
    List Issue :=
  let place := Place.top.item "statuses" index
  (if s.id == "" then [{ problem := .noStatusId, place := place.field "id" }]
   else if ids.contains s.id then
    [{ problem := .duplicateStatusId s.id, place := place.field "id" }]
   else []) ++
  (if orders.any s.order.isOne then
    [{ problem := .duplicateStatusOrder s.order, place := place.field "order" }]
   else [])

/-- The issues with statuses from position `index` on, after others with the given ids and
orders. -/
def statusesIssues (ids : List String) (orders : List Number) (index : Nat) :
    List Status → List Issue
  | [] => []
  | s :: rest =>
    statusIssues ids orders index s ++
      statusesIssues (s.id :: ids) (s.order :: orders) (index + 1) rest

/-- The issues with all statuses. -/
def checkStatuses (statuses : List Status) : List Issue :=
  if statuses.isEmpty then [{ problem := .noStatuses, place := Place.top.field "statuses" }]
  else statusesIssues [] [] 0 statuses

/-- The issues with the trigger. -/
def checkTrigger (statusIds : List String) (t : Trigger) : List Issue :=
  match t.initialStatus with
  | some initial =>
    if initial == "" || statusIds.contains initial then []
    else [{ problem := .undeclaredStatus initial
            place := (Place.top.field "trigger").field "initialStatus" }]
  | none => []

/-! ## Actions -/

/-- The part of an action that is checked: its place and the ids it is reported with. -/
structure Subject where
  place : Place
  step : String
  action : String

/-- An issue with a part of an action. -/
def Subject.issue (s : Subject) (place : Place) (problem : Problem) : Issue :=
  { problem, place, step := s.step, action := s.action }

/-- The place of an action's configuration. -/
def Subject.config (s : Subject) : Place := s.place.field "config"

/-- The issues with fields that must be texts if they are there, reported below `place`. -/
def textIssues (s : Subject) (place : Place) (fields : Fields) (names : List String) :
    List Issue :=
  names.filterMap fun name =>
    let value := fields.value name
    if value.isNull || value.isText then none
    else some (s.issue ((place.field "config").field name) (.notText name))

/-- The issue with a value that must be a list of texts if it is there. -/
def listIssues (s : Subject) (place : Place) (value : Json) (label : String) : List Issue :=
  if value.isNull || value.texts?.isSome then [] else [s.issue place (.notTexts label)]

/-- The texts among the values of some fields. -/
def textsOf (fields : Fields) (names : List String) : List String :=
  names.filterMap fun name => (fields.value name).text?

/-- The texts of a list of texts, none when it is no such list. -/
def listed (value : Json) : List String := value.texts?.getD []

/-- Whether a document names a role or a user to assign a task to. -/
def isAssignee : Json → Bool
  | .object fields =>
    ((fields.value "type").isTextOf "role" && (fields.value "role").truthy) ||
      ((fields.value "type").isTextOf "user" && (fields.value "userId").truthy)
  | _ => false

/-- The issues with the configuration of an action that creates a task. -/
def taskIssues (s : Subject) (config : Fields) : List Issue :=
  (if isAssignee (config.value "assignTo") then []
   else [s.issue (s.config.field "assignTo") .noAssignee]) ++
  (if ((config.get? "taskType").getD (.text "standard")).isOneOf taskKinds then []
   else [s.issue (s.config.field "taskType")
          (.unsupportedTaskType (config.value "taskType").plain)]) ++
  (if (config.value "dueDays").isNull || (config.value "dueDays").count?.isSome then []
   else [s.issue (s.config.field "dueDays") .dueDaysNotCount]) ++
  textIssues s s.place config ["title", "description"] ++
  listIssues s (s.config.field "links") (config.value "links") "Links"

/-- The texts of a configuration that creates a task. -/
def taskTexts (config : Fields) : List String :=
  textsOf config ["title", "description"] ++ listed (config.value "links")

/-- The fields of an e-mail. -/
def mailFields : List String := ["to", "subject", "body", "from"]

/-- The recipients of a notification, if they are of a kind that there is. -/
def recipients? (config : Fields) : Option Fields :=
  match config.value "recipients" with
  | .object fields => if (fields.value "type").isOneOf recipientKinds then some fields else none
  | _ => none

/-- The issues with the configuration of a notification. -/
def notificationIssues (s : Subject) (config : Fields) : List Issue :=
  (match recipients? config with
   | none => [s.issue (s.config.field "recipients") .unsupportedRecipients]
   | some recipients =>
     textIssues s (s.config.field "recipients") recipients ["userId", "role"] ++
     listIssues s ((s.config.field "recipients").field "groupIds") (recipients.value "groupIds")
       "Recipient groups") ++
  textIssues s s.place config ["title", "message"]

/-- The texts of a configuration of a notification. -/
def notificationTexts (config : Fields) : List String :=
  (match recipients? config with
   | none => []
   | some recipients =>
     textsOf recipients ["userId", "role"] ++ listed (recipients.value "groupIds")) ++
  textsOf config ["title", "message"]

/-- The issues with the configuration of an action that sets the status. -/
def statusChangeIssues (scope : Scope) (s : Subject) (config : Fields) : List Issue :=
  let status := config.value "status"
  if !status.isNull && !status.isText then [s.issue (s.config.field "status") .statusNotText]
  else if scope.statusIds.isEmpty then []
  else if status.truthy && status.isOneOf scope.statusIds then []
  else [s.issue (s.config.field "status") (.undeclaredStatus status.plain)]

/-- The issues with the configuration of an action of a supported kind. -/
def configIssues (scope : Scope) (s : Subject) (kind : String) (config : Fields) : List Issue :=
  match kind with
  | "create_task" => taskIssues s config
  | "send_email" => textIssues s s.place config mailFields
  | "notification" => notificationIssues s config
  | _ => statusChangeIssues scope s config

/-- The texts of a configuration in which references are looked for. -/
def configTexts (kind : String) (config : Fields) : List String :=
  match kind with
  | "create_task" => taskTexts config
  | "send_email" => textsOf config mailFields
  | "notification" => notificationTexts config
  | _ => []

/-- The issue with references that stand for nothing. -/
def referenceIssues (scope : Scope) (s : Subject) (texts : List String) : List Issue :=
  let refs := texts.flatMap (Template.unsupported scope.keys)
  if refs.isEmpty then [] else [s.issue s.config (.unsupportedReferences refs)]

/-- The issue with an id that must be there and must not have been met. -/
def idIssues (seen : List String) (place : Place) (step action : Option String) (id : String)
    (missing : Problem) (duplicate : String → Problem) : List Issue :=
  if Text.isBlankText id then [{ problem := missing, place := place.field "id", step }]
  else if seen.contains id then
    [{ problem := duplicate id, place := place.field "id", step :=
      step.orElse fun _ => id, action }]
  else []

/-- The ids met after another one. -/
def meet (seen : List String) (id : String) : List String :=
  if Text.isBlankText id || seen.contains id then seen else id :: seen

/-- The issues with an action. -/
def actionIssues (scope : Scope) (seen : List String) (place : Place) (step : String)
    (action : Action) : List Issue :=
  let s : Subject := ⟨place, step, action.id⟩
  idIssues seen place (some step) (some action.id) action.id .noActionId .duplicateActionId ++
  if supportedActions.contains action.kind then
    configIssues scope s action.kind action.config ++
      referenceIssues scope s (configTexts action.kind action.config)
  else [s.issue (place.field "type") (.unsupportedAction action.id action.kind)]

/-- The issues with actions from position `index` on, and the action ids met after them. -/
def checkActions (scope : Scope) (place : Place) (step : String) (seen : List String)
    (index : Nat) :
    List Action → List Issue × List String
  | [] => ([], seen)
  | action :: rest =>
    let (issues, seen') :=
      checkActions scope place step (meet seen action.id) (index + 1) rest
    (actionIssues scope seen (place.item "actions" index) step action ++ issues, seen')

/-! ## Conditions -/

/-- The ids of the actions that create tasks. -/
def taskActionIds (actions : List Action) : List String :=
  (actions.filter fun action => action.kind == "create_task").map Action.id

/-- The issues with the condition for going on from a step. -/
def advancementIssues (place : Place) (step : String) (actions : List Action) (a : Advancement) :
    List Issue :=
  let place := place.field "advancementCondition"
  match a.kind with
  | "automatic" => []
  | "when_task_completed" =>
    let place := (place.field "config").field "taskActionId"
    match a.config.value "taskActionId" with
    | .text id =>
      if (taskActionIds actions).contains id then []
      else [{ problem := .notATaskAction id, place, step, action := id }]
    | .null => [{ problem := .notATaskAction Json.null.plain, place, step }]
    | _ => [{ problem := .taskActionNotText, place, step }]
  | kind => [{ problem := .unsupportedAdvancement kind, place := place.field "type", step }]

/-- The issues with the test of a branch step of so many tracks. -/
def conditionIssues (place : Place) (step : String) (c : BranchCondition) (tracks : Nat) :
    List Issue :=
  let issue (place : Place) (problem : Problem) : Issue := { problem, place, step }
  let condition := place.field "condition"
  (match c.operator with
   | "in" =>
     (if tracks < 2 then [issue (place.field "tracks") .fewerThanTwoTracks] else []) ++
     (match c.compareValue.texts? with
      | none => [issue (condition.field "compareValue") .compareValueNotTexts]
      | some values =>
        if tracks ≥ 2 && values.length != tracks - 1 then
          [issue (condition.field "compareValue") (.compareValueCount tracks)]
        else [])
   | "equals" | "not_equals" =>
     (if tracks != 2 then [issue (place.field "tracks") .notTwoTracks] else []) ++
     (if c.compareValue.isText then []
      else [issue (condition.field "compareValue") .compareValueNotText])
   | operator => [issue (condition.field "operator") (.unsupportedOperator operator)]) ++
  (if (Template.branchField? c.variableRef).isSome then []
   else [issue (condition.field "variableRef") .branchVariableNotContact])

/-! ## Steps -/

/-- The issue with the id of a step. -/
def stepIdIssues (seen : Seen) (place : Place) (id : String) : List Issue :=
  idIssues seen.steps place none none id .noStepId .duplicateStepId

mutual

/-- The issues with a step, and the ids met after it. -/
def checkStep (scope : Scope) (seen : Seen) (place : Place) : Step → List Issue × Seen
  | .standard head actions advancement =>
    let (issues, met) := checkActions scope place head.id seen.actions 0 actions
    ( stepIdIssues seen place head.id ++ issues ++
        advancementIssues place head.id actions advancement,
      ⟨meet seen.steps head.id, met⟩ )
  | .branch head condition tracks =>
    let (issues, seen') :=
      checkTracks scope ⟨meet seen.steps head.id, seen.actions⟩ place head.id 0 tracks
    ( stepIdIssues seen place head.id ++
        conditionIssues place head.id condition tracks.length ++ issues,
      seen' )

/-- The issues with steps from position `index` on, and the ids met after them. -/
def checkSteps (scope : Scope) (seen : Seen) (place : Place) (index : Nat) :
    List Step → List Issue × Seen
  | [] => ([], seen)
  | step :: rest =>
    let (issues, seen) := checkStep scope seen (place.item "steps" index) step
    let (more, seen) := checkSteps scope seen place (index + 1) rest
    (issues ++ more, seen)

/-- The issues with tracks from position `index` on, and the ids met after them. -/
def checkTracks (scope : Scope) (seen : Seen) (place : Place) (step : String) (index : Nat) :
    List Track → List Issue × Seen
  | [] => ([], seen)
  | .mk _ _ steps :: rest =>
    let track := place.item "tracks" index
    let empty : List Issue :=
      if steps.isEmpty then [{ problem := .emptyTrack, place := track.field "steps", step }] else []
    let (issues, seen) := checkSteps scope seen track 0 steps
    let (more, seen) := checkTracks scope seen place step (index + 1) rest
    (empty ++ issues ++ more, seen)

end

end Validation

/-- All issues of a definition. -/
def Definition.issues (d : Definition) : List Issue :=
  let scope := Validation.Scope.of d
  Validation.checkStatuses d.statuses ++ Validation.checkTrigger d.statusIds d.trigger ++
    (Validation.checkSteps scope ⟨[], []⟩ .top 0 d.steps).1

end Casework
