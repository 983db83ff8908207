/-
  Casework.Program.Lowering

  Programs of plans. The ids of all instructions are chosen first, in the order in which the parts
  of the plan name them; instructions then refer to ids by their numbers in that order. A step takes
  a stretch of numbers that begins with its first instruction, so that the number behind a stretch
  is where the next step begins.

  A branch becomes its condition, the instructions of its tracks and a merge. The condition and the
  merge have the first two numbers. A track that another one follows goes to the merge at its end,
  unless it ends in a branch, whose own merge does so.
-/
import Casework.Definition.Reading
import Casework.Program.Plan
import Casework.Program.StepId

namespace Casework

namespace Plan

/-! ## How many instructions a part takes -/

/-- Whether the last of some steps is a standard one. -/
def endsStandard : List Step → Bool
  | [] => false
  | [.standard ..] => true
  | [.branch ..] => false
  | _ :: rest => endsStandard rest

/-- Whether a track with these steps ends in a jump when another track follows. -/
def skips (steps : List Step) (following : List Track) : Bool :=
  !following.isEmpty && endsStandard steps

mutual

/-- The number of instructions of a step. -/
def Step.size : Step → Nat
  | .standard _ actions none => max actions.length 1
  | .standard _ actions (some _) => actions.length + 1
  | .branch _ _ _ tracks => tracksSize tracks + 2

/-- The number of instructions of steps. -/
def stepsSize : List Step → Nat
  | [] => 0
  | step :: rest => step.size + stepsSize rest

/-- The number of instructions of tracks. -/
def tracksSize : List Track → Nat
  | [] => 0
  | .mk _ steps :: rest => stepsSize steps + (if skips steps rest then 1 else 0) + tracksSize rest

end

/-! ## What the parts suggest as ids -/

/-- The ids suggested by actions from position `index` on. -/
def actionBases (step : String) (index : Nat) : List Action → List String
  | [] => []
  | action :: rest =>
    (if action.id == "" then step ++ "__action_" ++ toString (index + 1) else action.id) ::
      actionBases step (index + 1) rest

mutual

/-- The ids suggested by a step. -/
def Step.bases : Step → List String
  | .standard head actions none =>
    if actions.isEmpty then [head.id ++ "__anchor"] else actionBases head.id 0 actions
  | .standard head actions (some _) =>
    actionBases head.id 0 actions ++ [head.id ++ "__wait_task"]
  | .branch head _ _ tracks =>
    (head.id ++ "__condition") :: (head.id ++ "__merge") :: tracksBases head.id 0 tracks

/-- The ids suggested by steps. -/
def stepsBases : List Step → List String
  | [] => []
  | step :: rest => step.bases ++ stepsBases rest

/-- The ids suggested by tracks from position `index` on. -/
def tracksBases (step : String) (index : Nat) : List Track → List String
  | [] => []
  | .mk _ steps :: rest =>
    stepsBases steps ++
      (if skips steps rest then [step ++ "__skip_track_" ++ toString (index + 1)] else []) ++
      tracksBases step (index + 1) rest

end

/-! ## The instructions -/

/-- The id of every number. -/
abbrev Naming := Nat → String

/-- What is written about work behind the name of its step. -/
def caption : Work → String
  | .createTask _ => "Create Task"
  | .sendMail _ => "Send Email"
  | .notify _ => "Notification"
  | .setStatus _ => "Update Status"

/-- An instruction of a step. -/
def instruction (head : StepHead) (id caption : String) (operation : Operation) : Instruction :=
  ⟨id, head.name ++ ": " ++ caption, head.phase, operation⟩

/-- The instructions of actions, numbered from `n` on. -/
def emitActions (ids : Naming) (head : StepHead) (n : Nat) : List Action → List Instruction
  | [] => []
  | action :: rest =>
    instruction head (ids n) (caption action.work) (.work action.work) ::
      emitActions ids head (n + 1) rest

/-- The instructions of a standard step, numbered from `n` on. -/
def emitStandard (ids : Naming) (n : Nat) (head : StepHead) (actions : List Action) :
    Option Wait → List Instruction
  | some wait =>
    emitActions ids head n actions ++
      [instruction head (ids (n + actions.length)) "Wait for Task"
        (.awaitTask (ids (n + wait.position)) wait.days)]
  | none =>
    if actions.isEmpty then [instruction head (ids n) "Anchor" .mark]
    else emitActions ids head n actions

/-- The values and the first numbers of tracks that are numbered from `n` on. -/
def entries (n : Nat) : List Track → List (Option String × Nat)
  | [] => []
  | .mk guard steps :: rest =>
    (guard, n) :: entries (n + stepsSize steps + (if skips steps rest then 1 else 0)) rest

/-- Where the values of a branch lead, its tracks numbered from `n` on. -/
def targets (ids : Naming) (n : Nat) (tracks : List Track) : List (String × String) :=
  (entries n tracks).filterMap fun (guard, start) => guard.map fun value => (value, ids start)

/-- Where all other values lead. -/
def otherwise (ids : Naming) (n : Nat) (tracks : List Track) : String :=
  ids (((entries n tracks).lookup none).getD n)

mutual

/-- The instructions of a step that is numbered from `n` on and goes on to `follow`. -/
def emitStep (ids : Naming) (n : Nat) (follow : String) : Step → List Instruction
  | .standard head actions wait => emitStandard ids n head actions wait
  | .branch head field comparison tracks =>
    instruction head (ids n) "Branch"
        (.branch field comparison (targets ids (n + 2) tracks) (otherwise ids (n + 2) tracks)) ::
      emitTracks ids head (ids (n + 1)) (n + 2) tracks ++
      [instruction head (ids (n + 1)) "Merge" (.goto follow)]

/-- The instructions of steps that are numbered from `n` on and go on to `follow`. -/
def emitSteps (ids : Naming) (n : Nat) (follow : String) : List Step → List Instruction
  | [] => []
  | step :: rest =>
    emitStep ids n (if rest.isEmpty then follow else ids (n + step.size)) step ++
      emitSteps ids (n + step.size) follow rest

/-- The instructions of tracks that are numbered from `n` on and go on to `merge`. -/
def emitTracks (ids : Naming) (head : StepHead) (merge : String) (n : Nat) :
    List Track → List Instruction
  | [] => []
  | .mk _ steps :: rest =>
    emitSteps ids n merge steps ++
      (if skips steps rest then
        [instruction head (ids (n + stepsSize steps)) "Skip to Merge" (.goto merge)]
       else []) ++
      emitTracks ids head merge
        (n + stepsSize steps + (if skips steps rest then 1 else 0)) rest

end

/-- The ids that a plan suggests, in the order of their numbers. -/
def bases (plan : Plan) : List String :=
  "trigger_start" :: stepsBases plan.steps ++ ["workflow_end"]

/-- The ids of a plan's instructions. -/
def names (plan : Plan) : List String := (StepId.freshAll [] plan.bases).1

/-- The naming that gives the names of a list to the numbers from zero on. -/
def namingOf (names : List String) : Naming := fun n => names.getD n ""

/-- The program of a plan: its start, its steps and its end. -/
def program (plan : Plan) : Program :=
  let names := plan.names
  let ids := namingOf names
  let last := 1 + stepsSize plan.steps
  ⟨ids 0, "Trigger", none, .start plan.trigger plan.contactRequired⟩ ::
    emitSteps ids 1 (ids last) plan.steps ++
    [⟨ids last, "Workflow End", none, .mark⟩]

end Plan

/-! ## Compilation -/

/-- Why a document gives no program. -/
inductive Refusal where
  /-- The definition has issues. -/
  | issues (error : CompileError)
  /-- A part of the definition does not have the form that its instruction needs. -/
  | fault (fault : Fault)
  deriving DecidableEq, Repr

/-- The program of a definition. -/
def Definition.compile (d : Definition) : Except Refusal Program :=
  if d.issues.isEmpty then
    match Plan.ofDefinition d with
    | .ok plan => .ok plan.program
    | .error fault => .error (.fault fault)
  else .error (.issues ⟨d.issues⟩)

/-- The program of the definition that a document describes. -/
def compile (j : Json) : Except Refusal Program :=
  match Definition.ofJson j with
  | .ok d => d.compile
  | .error error => .error (.issues error)

end Casework
