/-
  Casework.Proofs.Definition.Meaning

  What a definition says is to be done, read off its steps without a program: steps one after the
  other, the actions of a standard step in order and then what it waits for, and exactly one track
  of a branch. Deeds change the state of whoever carries them out, and with it the variables that
  later branches are decided by.
-/
import Casework.Program.Lowering
import Casework.Program.Plan
import Casework.Proofs.Definition.Parts
import Casework.Proofs.Program.Tour

namespace Casework

/-- The track that a value leads into, of so many tracks: with `equals` the first one for the
compared value and the second one for others, with `not_equals` the other way, with `in` the one
with the number of the value, and the last one for others. -/
def BranchCondition.choice? (c : BranchCondition) (tracks : Nat) (value : String) : Option Nat :=
  match c.operator, c.compareValue with
  | "equals", .text expected => some (if value = expected then 0 else 1)
  | "not_equals", .text expected => some (if value = expected then 1 else 0)
  | "in", values => values.texts?.map fun values => (values.idxOf? value).getD (tracks - 1)
  | _, _ => none

/-- The last of some actions that creates a task and has the id. -/
def creator? (id : String) : List Action → Option Action
  | [] => none
  | action :: rest =>
    (creator? id rest).or
      (if action.kind == "create_task" && action.id == id then some action else none)

/-- Deeds and the state after them. -/
abbrev Deeds (σ : Type) := List Instruction × σ

/-- One part after another. -/
def Deeds.andThen {σ : Type} (first second : σ → Except Fault (Deeds σ))
    (s : σ) : Except Fault (Deeds σ) := do
  let (deeds, s) ← first s
  let (more, s) ← second s
  pure (deeds ++ more, s)

/-- To do nothing first makes no difference. -/
theorem Deeds.nothing_andThen {σ : Type} (second : σ → Except Fault (Deeds σ)) :
    Deeds.andThen (fun s => .ok ([], s)) second = second := by
  funext s
  rw [Deeds.andThen]
  cases hsecond : second s with
  | error f => simp [bind, Except.bind, hsecond]
  | ok result => simp [bind, Except.bind, pure, Except.pure, hsecond]

/-- To do nothing afterwards makes no difference. -/
theorem Deeds.andThen_nothing {σ : Type} (first : σ → Except Fault (Deeds σ)) :
    Deeds.andThen first (fun s => .ok ([], s)) = first := by
  funext s
  rw [Deeds.andThen]
  cases first s with
  | error f => rfl
  | ok result => simp [bind, Except.bind, pure, Except.pure]

/-- Who carries out definitions: the names that stand for custom variables, the ids under which the
parts are carried out, and what deeds do. -/
structure Agent (σ : Type) where
  keys : Entries String
  names : Part → String
  walker : Walk.Walker σ

namespace Agent

variable {σ : Type} (a : Agent σ)

/-- A single deed. -/
def perform (deed : Instruction) (s : σ) : Except Fault (Deeds σ) :=
  .ok ([deed], a.walker.act deed.toJson s)

/-- The deed of an action. -/
def ofAction (head : StepHead) (action : Action) (s : σ) : Except Fault (Deeds σ) := do
  let work ← Plan.workOf a.keys action.kind action.config
  a.perform ⟨a.names (.action action.id), head.name ++ ": " ++ Plan.caption work, head.phase,
    .work work⟩ s

/-- The deeds of actions. -/
def ofActions (head : StepHead) : List Action → σ → Except Fault (Deeds σ)
  | [], s => .ok ([], s)
  | action :: rest, s => Deeds.andThen (a.ofAction head action) (ofActions head rest) s

/-- What a step waits for behind its actions: the task of the action that its condition names, for
as many days as the task has, or seven, but a day at least. -/
def ofWait (head : StepHead) (actions : List Action) (advancement : Advancement) (s : σ) :
    Except Fault (Deeds σ) :=
  if advancement.kind == "when_task_completed" then
    match advancement.config.value "taskActionId" with
    | .text id =>
      match creator? id actions with
      | some action => do
        let due ← Plan.daysOf (action.config.value "dueDays")
        a.perform ⟨a.names (.step head.id), head.name ++ ": " ++ "Wait for Task", head.phase,
          .awaitTask (a.names (.action id)) (max (due.getD defaultWaitDays) 1)⟩ s
      | none => .error (.missingField id)
    | j => .error (.noText j.shape)
  else .ok ([], s)

mutual

/-- The deeds of a step. -/
def ofStep : Step → σ → Except Fault (Deeds σ)
  | .standard head actions advancement, s =>
    Deeds.andThen (a.ofActions head actions) (a.ofWait head actions advancement) s
  | .branch _ condition tracks, s =>
    match Template.branchField? condition.variableRef with
    | some field =>
      match condition.choice? tracks.length (Template.render field (a.walker.vars s)) with
      | some index => ofTrack tracks index s
      | none => .error (.noItems condition.compareValue.shape)
    | none => .error (.noText .null)

/-- The deeds of steps. -/
def ofSteps : List Step → σ → Except Fault (Deeds σ)
  | [], s => .ok ([], s)
  | step :: rest, s => Deeds.andThen (ofStep step) (ofSteps rest) s

/-- The deeds of the track at position `index`. -/
def ofTrack : List Track → Nat → σ → Except Fault (Deeds σ)
  | [], _, _ => .error .missingItem
  | .mk _ _ steps :: _, 0, s => ofSteps steps s
  | _ :: rest, index + 1, s => ofTrack rest index s

end

theorem ofActions_cons (head : StepHead) (action : Action) (rest : List Action) :
    a.ofActions head (action :: rest) =
      Deeds.andThen (a.ofAction head action) (a.ofActions head rest) := by
  funext s
  rw [ofActions]

theorem ofStep_standard (head : StepHead) (actions : List Action) (advancement : Advancement) :
    a.ofStep (.standard head actions advancement) =
      Deeds.andThen (a.ofActions head actions) (a.ofWait head actions advancement) := by
  funext s
  rw [ofStep]

theorem ofSteps_nil : a.ofSteps [] = fun s => .ok ([], s) := by
  funext s
  rw [ofSteps]

theorem ofSteps_cons (step : Step) (rest : List Step) :
    a.ofSteps (step :: rest) = Deeds.andThen (a.ofStep step) (a.ofSteps rest) := by
  funext s
  rw [ofSteps]

theorem ofTrack_zero (id label : String) (steps : List Step) (rest : List Track) :
    a.ofTrack (.mk id label steps :: rest) 0 = a.ofSteps steps := by
  funext s
  rw [ofTrack]

theorem ofTrack_succ (track : Track) (rest : List Track) (index : Nat) :
    a.ofTrack (track :: rest) (index + 1) = a.ofTrack rest index := by
  funext s
  rw [ofTrack]

end Agent

/-- What a definition says is to be done, by a walker from a state on, if its parts have the given
names. -/
def Definition.meaning {σ : Type} (d : Definition) (names : Part → String) (w : Walk.Walker σ)
    (s : σ) : Except Fault (Deeds σ) :=
  Agent.ofSteps ⟨Template.keysOf d.vars, names, w⟩ d.steps s

end Casework
