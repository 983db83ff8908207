/-
  Casework.Definition.Basic

  Workflow definitions as authors write them: statuses, a trigger, variables and a tree of steps.
  A standard step has actions and a condition for going on; a branch step tests a variable and
  runs one of its tracks, which are lists of steps again.
-/
import Casework.Json.Basic

namespace Casework

/-- A business status that an execution can be in. -/
structure Status where
  id : String
  label : String
  order : Number
  color : Option String
  deriving Repr

/-- A phase that groups steps for display. -/
structure Phase where
  id : String
  name : String
  order : Number
  color : Option String
  deriving Repr

/-- A declared variable. Only those with a custom source can be referred to. -/
structure Variable where
  id : String
  name : String
  kind : String
  source : Fields
  deriving Repr

namespace Variable

/-- Whether the variable's value is given with its declaration. -/
def isCustom (v : Variable) : Bool := (v.source.value "type").isTextOf "custom"

end Variable

/-- What starts a workflow. -/
inductive TriggerKind where
  | manual
  | contactStatus (value : String)
  | formSubmission (form : String)
  | api
  deriving DecidableEq, Repr

/-- The word for a kind of trigger. -/
def TriggerKind.word : TriggerKind → String
  | .manual => "manual"
  | .contactStatus _ => "contact_status"
  | .formSubmission _ => "form_submission"
  | .api => "api"

/-- What starts a workflow and the status an execution then has. -/
structure Trigger where
  kind : TriggerKind
  initialStatus : Option String
  deriving DecidableEq, Repr

/-- A thing to do in a standard step. -/
structure Action where
  id : String
  kind : String
  config : Fields
  deriving Repr

/-- When a standard step goes on to the next one. -/
structure Advancement where
  kind : String
  config : Fields
  deriving Repr

/-- The test of a branch step. -/
structure BranchCondition where
  variableRef : String
  operator : String
  compareValue : Json
  deriving Repr

/-- What every step has. -/
structure StepHead where
  id : String
  name : String
  phase : Option String
  deriving DecidableEq, Repr

mutual

/-- A step of a workflow. -/
inductive Step where
  | standard (head : StepHead) (actions : List Action) (advancement : Advancement)
  | branch (head : StepHead) (condition : BranchCondition) (tracks : List Track)

/-- One of the ways a branch step can take. -/
inductive Track where
  | mk (id label : String) (steps : List Step)

end

/-- What every step has. -/
def Step.head : Step → StepHead
  | .standard head _ _ => head
  | .branch head _ _ => head

/-- Whether a step is a standard one. -/
def Step.isStandard : Step → Bool
  | .standard .. => true
  | .branch .. => false

namespace Track

/-- The name of a track. -/
def id : Track → String
  | .mk id _ _ => id

/-- The text that is shown for a track. -/
def label : Track → String
  | .mk _ label _ => label

/-- The steps of a track. -/
def steps : Track → List Step
  | .mk _ _ steps => steps

end Track

/-- A workflow definition. -/
structure Definition where
  id : String
  name : String
  description : Option String
  trigger : Trigger
  contactRequired : Bool
  statuses : List Status
  vars : List Variable
  phases : List Phase
  steps : List Step

namespace Definition

/-- The ids of the declared statuses. -/
def statusIds (d : Definition) : List String := d.statuses.map Status.id

end Definition
end Casework
