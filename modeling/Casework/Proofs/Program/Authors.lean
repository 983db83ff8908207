/-
  Casework.Proofs.Program.Authors

  Which action an instruction was written by. The instructions of a program that ask for work do the
  work of the definition's actions, one for each action and in the same order, wherever the actions
  stand. So an instruction that creates a task has an action that says what the task is to be. Since
  ids tell instructions apart, whether a decision needs a comment is found by the id of the
  instruction: it is what this very action says.
-/
import Casework.Program.StoredStep
import Casework.Proofs.Program.Origin

namespace Casework

open Result

/-- Whether an instruction asks for work. -/
def Instruction.isWork (i : Instruction) : Bool :=
  match i.operation with
  | .work _ => true
  | _ => false

/-- The actions of a definition, in the order in which they are written. -/
def Definition.actions (d : Definition) : List Action :=
  (stepsStandards d.steps).flatMap StandardStep.actions

-- ============================================================================
-- The work of the parts
-- ============================================================================

namespace Plan

variable {keys : Entries String} {ids : Naming}

/-- An instruction does the work that an action asks for. -/
def Does (keys : Entries String) (action : Casework.Action) (i : Instruction) : Prop :=
  ∃ work, workOf keys action.kind action.config = .ok work ∧ i.operation = .work work

/-- The instructions for some actions do what the actions ask for, one after the other. -/
theorem does_emitActions {actions : List Casework.Action} {works : List Action} (head : StepHead)
    (n : Nat) (hworks : actions.mapM (actionOf keys) = .ok works) :
    List.Forall₂ (Does keys) actions
    ((emitActions ids head n works).filter Instruction.isWork) := by
  rw [mapM_eq_ok_iff] at hworks
  induction hworks generalizing n with
  | nil => exact .nil
  | cons hfirst _ ih =>
    obtain ⟨work, hwork, rfl⟩ := map_eq_ok_iff.1 hfirst
    rw [emitActions, List.filter_cons_of_pos rfl]
    exact .cons ⟨work, hwork, rfl⟩ (ih (n + 1))

/-- Neither a wait nor a place to begin at is work. -/
theorem filter_emitStandard (n : Nat) (head : StepHead) (works : List Action) (wait : Option Wait) :
    (emitStandard ids n head works wait).filter Instruction.isWork =
      (emitActions ids head n works).filter Instruction.isWork := by
  cases wait with
  | some wait => rw [emitStandard, List.filter_append]; exact List.append_nil _
  | none =>
    cases works with
    | nil => rfl
    | cons work rest => rfl

mutual

/-- The work of a step is that of the actions at or below it. -/
theorem does_emitStep {step : Casework.Step} {planned : Step} (n : Nat) (follow : String)
    (hplanned : stepOf keys step = .ok planned) :
    List.Forall₂ (Does keys) (step.standards.flatMap StandardStep.actions)
      ((emitStep ids n follow planned).filter Instruction.isWork) := by
  cases step with
  | standard head actions advancement =>
    obtain ⟨works, wait, hworks, -, rfl⟩ := stepOf_standard_eq_ok hplanned
    rw [emitStep, filter_emitStandard, Step.standards, List.flatMap_singleton]
    exact does_emitActions head n hworks
  | branch head condition tracks =>
    obtain ⟨field, comparison, guards, planned, -, -, htracks, rfl⟩ := stepOf_branch_eq_ok hplanned
    have hmerge : [instruction head (ids (n + 1)) "Merge" (.goto follow)].filter
      Instruction.isWork =
        [] := rfl
    rw [emitStep, Step.standards, List.filter_append,
      List.filter_cons_of_neg Bool.false_ne_true, hmerge,
      List.append_nil]
    exact does_emitTracks head _ _ htracks

/-- The working instructions of some steps do what the actions of these steps ask for. -/
theorem does_emitSteps {steps : List Casework.Step} {planned : List Step} (n : Nat)
    (follow : String)
    (hplanned : stepsOf keys steps = .ok planned) :
    List.Forall₂ (Does keys) ((stepsStandards steps).flatMap StandardStep.actions)
      ((emitSteps ids n follow planned).filter Instruction.isWork) := by
  match steps with
  | [] =>
    cases hplanned
    exact .nil
  | step :: rest =>
    obtain ⟨first, more, hfirst, hmore, rfl⟩ := stepsOf_cons_eq_ok hplanned
    rw [emitSteps, List.filter_append, stepsStandards, List.flatMap_append]
    exact List.rel_append (does_emitStep n _ hfirst) (does_emitSteps _ follow hmore)

theorem does_emitTracks {tracks : List Casework.Track} {guards : List (Option String)}
    {planned : List Track} (head : StepHead) (n : Nat) (merge : String)
    (hplanned : tracksOf keys guards tracks = .ok planned) :
    List.Forall₂ (Does keys) ((tracksStandards tracks).flatMap StandardStep.actions)
      ((emitTracks ids head merge n planned).filter Instruction.isWork) := by
  match tracks with
  | [] =>
    cases hplanned
    exact .nil
  | .mk id label steps :: rest =>
    obtain ⟨first, more, hfirst, -, hmore, rfl⟩ := tracksOf_cons_eq_ok hplanned
    have hskip : (if skips first more then
        [instruction head (ids (n + stepsSize first)) "Skip to Merge" (.goto merge)]
       else []).filter Instruction.isWork = [] := by
      split <;> rfl
    rw [emitTracks, List.filter_append, List.filter_append, hskip, List.append_nil, tracksStandards,
      List.flatMap_append]
    exact List.rel_append (does_emitSteps n merge hfirst) (does_emitTracks head _ merge hmore)

end

/-- The start and the end of a program are no work. -/
theorem filter_program (plan : Plan) :
    plan.program.filter Instruction.isWork =
      (emitSteps (namingOf plan.names) 1 plan.ending.id plan.steps).filter Instruction.isWork := by
  obtain ⟨start, hstart, -, hprogram⟩ := plan.program_eq
  have hidle : start.isWork = false := by rw [Instruction.isWork, hstart]
  rw [hprogram, List.filter_cons_of_neg (by simp [hidle]), List.filter_append]
  exact List.append_nil _

end Plan

-- ============================================================================
-- The work of programs
-- ============================================================================

/-- The action is the one that an instruction of a program was written by: among what asks for work,
they stand in the same place. -/
def Definition.Authors (d : Definition) (p : Program) (action : Action) (i : Instruction) : Prop :=
  (action, i) ∈ d.actions.zip (p.filter Instruction.isWork)

namespace Definition

variable {d : Definition} {p : Program} {i : Instruction}

/-- The work of a program is that of the definition's actions, one by one. -/
theorem does_program (h : d.compile = .ok p) :
    List.Forall₂ (Plan.Does (Template.keysOf d.vars)) d.actions (p.filter Instruction.isWork) := by
  obtain ⟨steps, hplanned, rfl⟩ := exists_plan_of_compile h
  rw [Plan.filter_program]
  exact Plan.does_emitSteps 1 _ hplanned

theorem Authors.mem {action : Action} (h : d.Authors p action i) : action ∈ d.actions ∧ i ∈ p :=
  ⟨(List.of_mem_zip h).1, (List.mem_filter.1 (List.of_mem_zip h).2).1⟩

/-- The instruction that an action is the author of does what the action asks for. -/
theorem Authors.does (h : d.compile = .ok p) {action : Action} (hauthors : d.Authors p action i) :
    Plan.Does (Template.keysOf d.vars) action i :=
  (List.forall₂_iff_zip.1 (does_program h)).2 hauthors

/-- An action of a definition that compiles has no issues. -/
theorem actionIssues_of_compile (h : d.compile = .ok p) {action : Action}
    (haction : action ∈ d.actions) :
    ∃ seen place step, Validation.actionIssues (.of d) seen place step action = [] := by
  obtain ⟨s, hs, haction⟩ := List.mem_flatMap.1 haction
  obtain ⟨seen, place, hactions, -⟩ := passes_of_issues (issues_of_compile h) s hs
  obtain ⟨seen', place', hfine⟩ := Plan.checkActions_eq_nil hactions action haction
  exact ⟨seen', place', _, hfine⟩

/-- Every action of a definition that compiles has an instruction of its own. -/
theorem exists_authored (h : d.compile = .ok p) {action : Action} (haction : action ∈ d.actions) :
    ∃ i, d.Authors p action i := by
  have hall : (d.actions.zip (p.filter Instruction.isWork)).map Prod.fst = d.actions :=
    List.map_fst_zip (does_program h).length_eq.le
  rw [← hall] at haction
  obtain ⟨⟨_, i⟩, hauthors, rfl⟩ := List.mem_map.1 haction
  exact ⟨i, hauthors⟩

/-- An instruction that creates a task was written by an action that describes the task. -/
theorem exists_author (h : d.compile = .ok p) (hi : i ∈ p) {task : TaskPlan}
    (hcreates : i.operation = .work (.createTask task)) :
    ∃ action, d.Authors p action i ∧ action.kind = "create_task" ∧
      Plan.Describes (Template.keysOf d.vars) action.config task := by
  have hwork : i ∈ p.filter Instruction.isWork :=
    List.mem_filter.2 ⟨hi, by rw [Instruction.isWork, hcreates]⟩
  have hall : (d.actions.zip (p.filter Instruction.isWork)).map Prod.snd =
      p.filter Instruction.isWork := List.map_snd_zip (does_program h).length_eq.ge
  rw [← hall] at hwork
  obtain ⟨⟨action, _⟩, hauthors, rfl⟩ := List.mem_map.1 hwork
  obtain ⟨work, hwork, hoperation⟩ := Authors.does h hauthors
  rw [hcreates] at hoperation
  cases hoperation
  obtain ⟨hkind, htask⟩ := workOf_eq_createTask hwork
  exact ⟨action, hauthors, hkind, Plan.describes_of_taskOf htask⟩

end Definition

-- ============================================================================
-- Comments
-- ============================================================================

/-- The configuration of a task says what the task is to be. -/
theorem TaskPlan.field_config (t : TaskPlan) :
    t.config.field "title" = .text t.title ∧ t.config.field "taskType" = .text t.kind.word ∧
      t.config.field "priority" = t.priority ∧
      t.config.field "requireComment" = .bool t.requireComment := by
  rcases t with ⟨_, _, _, _, _, _, _ | _, _ | _⟩ <;> exact ⟨rfl, rfl, rfl, rfl⟩

theorem TaskPlan.orElse_config (t : TaskPlan) (j : Json) : t.config.orElse j = t.config := by
  rcases t with ⟨_, _, _, _, _, _, _ | _, _ | _⟩ <;> rfl

namespace Task

/-- Where ids differ, the first instruction with an id that creates a task is the one that has the
id. -/
theorem creator?_toJson {p : Program} (hdistinct : (p.map Instruction.id).Nodup) {i : Instruction}
    (hi : i ∈ p) {task : TaskPlan} (hcreates : i.operation = .work (.createTask task)) :
    creator? (.text i.id) (p.map Instruction.toJson) = .ok (some i.toJson) := by
  -- What is looked for is a step with the id that creates a task.
  have hcreator : ∀ j : Instruction, isCreator (.text i.id) j.toJson =
      .ok (decide (j.id = i.id) && j.operation.word == "assign_task") := by
    intro j
    have hid : j.toJson.fieldOf "id" = .ok (.text j.id) := by
      rw [← j.field_id]
      rfl
    have hsame : (Json.text j.id).same (.text i.id) = decide (j.id = i.id) := by
      rw [Bool.eq_iff_iff, decide_eq_true_iff]
      show (Key.text j.id).same (.text i.id) ↔ _
      rw [Table.same_text_iff, Key.text.injEq]
    rw [isCreator, hid, j.field_type, ok_bind, hsame]
    rfl
  induction p with
  | nil => cases hi
  | cons j rest ih =>
    rw [List.map_cons, List.nodup_cons] at hdistinct
    rw [List.map_cons, creator?, hcreator, ok_bind]
    -- By induction: no step before has the id, since ids are distinct, and the step itself creates
    -- a task.
    rcases List.mem_cons.1 hi with rfl | hrest
    · simp [hcreates, Operation.word, Work.word]
    · have hne : j.id ≠ i.id := fun hsame => hdistinct.1 (hsame ▸ List.mem_map_of_mem hrest)
      simpa [hne] using ih hdistinct.2 hrest

/-- Whether the decision about a task needs a comment is what the instruction says that created the
task. -/
theorem requiresComment_toJson {p : Program} (hwell : p.WellFormed) {i : Instruction} (hi : i ∈ p)
    {task : TaskPlan} (hcreates : i.operation = .work (.createTask task)) :
    requiresComment p.toJson (.text i.id) = .ok task.requireComment := by
  -- The program has a step, and the step an id, so neither counts as absent.
  have hsteps : p.toJson.truthy := by
    cases p with
    | nil => cases hi
    | cons j rest => rfl
  have hid : (Json.text i.id).truthy := by
    simpa [Json.truthy] using (hwell.plain i hi).1
  have hitems : p.toJson.itemsOf = .ok (p.map Instruction.toJson) := rfl
  -- The option is written into the config, which is not empty.
  have hrequired : ((i.toJson.field "config").orElse (.obj [])).fieldOf "requireComment" =
      .ok (.bool task.requireComment) := by
    rw [i.field_config, hcreates, ← task.field_config.2.2.2]
    exact congrArg (Json.fieldOf · "requireComment") (task.orElse_config _)
  rw [requiresComment, hsteps, hid, hitems]
  simp only [Bool.not_true, Bool.or_self, Bool.false_eq_true, if_false, ok_bind,
    creator?_toJson hwell.distinct hi hcreates, hrequired]
  rfl

end Task
end Casework
