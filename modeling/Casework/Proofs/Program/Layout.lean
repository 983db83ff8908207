/-
  Casework.Proofs.Program.Layout

  Where the instructions of a plan stand. A part of a plan takes as many instructions as its size
  says, begins with the instruction of its first number, and uses every number of its stretch once.
  Numbers are handed out before the tracks of a branch are entered, so inside a branch an
  instruction does not stand at the place of its number: places are told by `HasAt`, ids by numbers.
-/
import Casework.Program.Lowering
import Casework.Proofs.Program.StepId
import Mathlib.Data.List.Perm.Basic
import Mathlib.Data.List.Range

namespace Casework

-- ============================================================================
-- Code at a place
-- ============================================================================

/-- The instructions of `code` stand in a program from place `q` on. -/
def Program.HasAt (p : Program) (q : Nat) (code : List Instruction) : Prop :=
  ∃ before after, p = before ++ code ++ after ∧ q = before.length

namespace Program.HasAt

variable {p : Program} {q : Nat} {i : Instruction} {code more : List Instruction}

theorem head (h : p.HasAt q (i :: code)) : p[q]? = some i := by
  obtain ⟨before, after, rfl, rfl⟩ := h
  simp

theorem tail (h : p.HasAt q (i :: code)) : p.HasAt (q + 1) code := by
  obtain ⟨before, after, rfl, rfl⟩ := h
  exact ⟨before ++ [i], after, by simp, by simp⟩

theorem left (h : p.HasAt q (code ++ more)) : p.HasAt q code := by
  obtain ⟨before, after, rfl, rfl⟩ := h
  exact ⟨before, more ++ after, by simp, rfl⟩

theorem right (h : p.HasAt q (code ++ more)) : p.HasAt (q + code.length) more := by
  obtain ⟨before, after, rfl, rfl⟩ := h
  exact ⟨before ++ code, after, by simp, by simp⟩

/-- An instruction of some code that stands in a program is found behind the place of the code. -/
theorem getElem? (h : p.HasAt q code) {k : Nat} (hi : code[k]? = some i) : p[q + k]? = some i := by
  obtain ⟨before, after, rfl, rfl⟩ := h
  obtain ⟨hlt, -⟩ := List.getElem?_eq_some_iff.1 hi
  rw [List.append_assoc, List.getElem?_append_right (Nat.le_add_right ..), Nat.add_sub_cancel_left,
    List.getElem?_append_left hlt, hi]

end Program.HasAt

theorem Program.hasAt_zero (p : Program) : p.HasAt 0 p := ⟨[], [], by simp, rfl⟩

namespace Plan

-- ============================================================================
-- Sizes
-- ============================================================================

@[simp] theorem length_emitActions (ids : Naming) (head : StepHead) (n : Nat)
    (actions : List Action) : (emitActions ids head n actions).length = actions.length := by
  induction actions generalizing n with
  | nil => rfl
  | cons action rest ih => simp [emitActions, ih]

/-- The instruction for an action is found at the number of the action. -/
theorem getElem?_emitActions (ids : Naming) (head : StepHead) (n : Nat) {actions : List Action}
    {k : Nat} {action : Action} (h : actions[k]? = some action) :
    (emitActions ids head n actions)[k]? =
      some (instruction head (ids (n + k)) (caption action.work) (.work action.work)) := by
  induction actions generalizing n k with
  | nil => simp at h
  | cons first rest ih =>
    cases k with
    | zero =>
      obtain rfl : first = action := by simpa using h
      rfl
    | succ k =>
      have hrest := ih (n + 1) (by simpa using h)
      rw [emitActions, List.getElem?_cons_succ, hrest, Nat.add_assoc, Nat.add_comm 1 k]

/-- A standard step gives as many instructions as its size says. -/
theorem length_emitStandard (ids : Naming) (n : Nat) (head : StepHead) (actions : List Action)
    (wait : Option Wait) :
    (emitStandard ids n head actions wait).length = (Step.standard head actions wait).size := by
  cases wait with
  | some wait => simp [emitStandard, Step.size]
  | none =>
    cases actions with
    | nil => rfl
    | cons action rest => simp [emitStandard, Step.size]

mutual

@[simp] theorem length_emitStep (ids : Naming) (n : Nat) (follow : String) (step : Step) :
    (emitStep ids n follow step).length = step.size := by
  cases step with
  | standard head actions wait => rw [emitStep, length_emitStandard]
  | branch head field comparison tracks =>
    rw [emitStep, Step.size]
    simp only [List.cons_append, List.length_cons, List.length_append, List.length_nil,
      length_emitTracks]

@[simp] theorem length_emitSteps (ids : Naming) (n : Nat) (follow : String) (steps : List Step) :
    (emitSteps ids n follow steps).length = stepsSize steps := by
  cases steps with
  | nil => rfl
  | cons step rest =>
    rw [emitSteps, stepsSize, List.length_append, length_emitStep, length_emitSteps]

@[simp] theorem length_emitTracks (ids : Naming) (head : StepHead) (merge : String) (n : Nat)
    (tracks : List Track) :
    (emitTracks ids head merge n tracks).length = tracksSize tracks := by
  match tracks with
  | [] => rfl
  | .mk guard steps :: rest =>
    rw [emitTracks, tracksSize, List.length_append, List.length_append, length_emitSteps,
      length_emitTracks]
    split <;> rfl

end

-- ============================================================================
-- Ids
-- ============================================================================

/-- A step begins with the instruction of its first number. -/
theorem head?_emitStep (ids : Naming) (n : Nat) (follow : String) (step : Step) :
    (emitStep ids n follow step).head?.map Instruction.id = some (ids n) := by
  cases step with
  | branch head field comparison tracks => rfl
  | standard head actions wait =>
    rw [emitStep]
    cases wait <;> cases actions <;> rfl

/-- The first instruction of some steps has the first of their ids. -/
theorem head?_emitSteps (ids : Naming) (n : Nat) (follow : String) {steps : List Step}
    (h : steps ≠ []) : (emitSteps ids n follow steps).head?.map Instruction.id = some (ids n) := by
  cases steps with
  | nil => exact absurd rfl h
  | cons step rest =>
    have hhead := head?_emitStep ids n (if rest.isEmpty then follow else ids (n + step.size)) step
    rw [emitSteps, List.head?_append]
    cases hfirst : (emitStep ids n (if rest.isEmpty then follow else ids (n + step.size))
      step).head? with
    | none => rw [hfirst] at hhead; cases hhead
    | some i => rw [hfirst] at hhead; exact hhead

theorem map_id_emitActions (ids : Naming) (head : StepHead) (n : Nat) (actions : List Action) :
    (emitActions ids head n actions).map Instruction.id =
      (List.range' n actions.length).map ids := by
  induction actions generalizing n with
  | nil => rfl
  | cons action rest ih =>
    rw [emitActions, List.map_cons, ih, List.length_cons, List.range'_succ, List.map_cons]
    rfl

/-- The instructions of a standard step have ids one after the other. -/
theorem map_id_emitStandard (ids : Naming) (n : Nat) (head : StepHead) (actions : List Action)
    (wait : Option Wait) :
    (emitStandard ids n head actions wait).map Instruction.id =
      (List.range' n (Step.standard head actions wait).size).map ids := by
  cases wait with
  | some wait =>
    rw [emitStandard, Step.size, List.map_append, map_id_emitActions, List.range'_1_concat,
      List.map_append]
    rfl
  | none =>
    cases actions with
    | nil => rfl
    | cons action rest =>
      have hsize : (Step.standard head (action :: rest) none).size = (action :: rest).length :=
        Nat.max_eq_left (Nat.succ_le_of_lt (Nat.succ_pos _))
      rw [emitStandard, if_neg (by simp), map_id_emitActions, hsize]

mutual

/-- The ids of a step are those of the numbers of its stretch. -/
theorem map_id_emitStep_perm (ids : Naming) (n : Nat) (follow : String) (step : Step) :
    ((emitStep ids n follow step).map Instruction.id).Perm
      ((List.range' n step.size).map ids) := by
  cases step with
  | standard head actions wait => rw [emitStep, map_id_emitStandard]
  | branch head field comparison tracks =>
    have htracks := map_id_emitTracks_perm ids head (ids (n + 1)) (n + 2) tracks
    rw [emitStep, Step.size, List.range'_succ, List.range'_succ, List.map_cons, List.map_cons,
      List.cons_append, List.map_cons, List.map_append]
    -- The merge has the second number, but stands behind the tracks.
    exact ((htracks.append_right [ids (n + 1)]).trans (List.perm_append_singleton ..)).cons (ids n)

/-- The instructions of some steps have the ids that are reserved for them, in some order. -/
theorem map_id_emitSteps_perm (ids : Naming) (n : Nat) (follow : String) (steps : List Step) :
    ((emitSteps ids n follow steps).map Instruction.id).Perm
      ((List.range' n (stepsSize steps)).map ids) := by
  cases steps with
  | nil => exact List.Perm.refl []
  | cons step rest =>
    rw [emitSteps, stepsSize, ← List.range'_append_1, List.map_append, List.map_append]
    exact (map_id_emitStep_perm ids n _ step).append
      (map_id_emitSteps_perm ids (n + step.size) follow rest)

theorem map_id_emitTracks_perm (ids : Naming) (head : StepHead) (merge : String) (n : Nat)
    (tracks : List Track) :
    ((emitTracks ids head merge n tracks).map Instruction.id).Perm
      ((List.range' n (tracksSize tracks)).map ids) := by
  match tracks with
  | [] => exact List.Perm.refl []
  | .mk guard steps :: rest =>
    have hskip : ((if skips steps rest then
        [instruction head (ids (n + stepsSize steps)) "Skip to Merge" (.goto merge)]
       else []).map Instruction.id) =
        (List.range' (n + stepsSize steps) (if skips steps rest then 1 else 0)).map ids := by
      split <;> rfl
    rw [emitTracks, tracksSize, ← List.range'_append_1, ← List.range'_append_1, List.map_append,
      List.map_append, List.map_append, List.map_append, hskip]
    refine ((map_id_emitSteps_perm ids n merge steps).append (List.Perm.refl _)).append ?_
    rw [Nat.add_assoc n]
    exact map_id_emitTracks_perm ids head merge _ rest

end

-- ============================================================================
-- Whole programs
-- ============================================================================

@[simp] theorem length_program (plan : Plan) : plan.program.length = stepsSize plan.steps + 2 := by
  simp [program]

theorem length_actionBases (step : String) (index : Nat) (actions : List Action) :
    (actionBases step index actions).length = actions.length := by
  induction actions generalizing index with
  | nil => rfl
  | cons action rest ih => rw [actionBases, List.length_cons, ih, List.length_cons]

mutual

/-- A part suggests an id for every instruction. -/
theorem length_stepBases (step : Step) : step.bases.length = step.size := by
  match step with
  | .standard head actions (some wait) =>
    rw [Step.bases, Step.size, List.length_append, length_actionBases]
    rfl
  | .standard head actions none =>
    cases actions with
    | nil => rfl
    | cons action rest =>
      rw [Step.bases, Step.size, if_neg (by simp), length_actionBases]
      exact (Nat.max_eq_left (Nat.succ_le_of_lt (Nat.succ_pos _))).symm
  | .branch head field comparison tracks =>
    rw [Step.bases, Step.size, List.length_cons, List.length_cons, length_tracksBases]

theorem length_stepsBases (steps : List Step) : (stepsBases steps).length = stepsSize steps := by
  cases steps with
  | nil => rfl
  | cons step rest =>
    rw [stepsBases, stepsSize, List.length_append, length_stepBases, length_stepsBases]

theorem length_tracksBases (step : String) (index : Nat) (tracks : List Track) :
    (tracksBases step index tracks).length = tracksSize tracks := by
  match tracks with
  | [] => rfl
  | .mk guard steps :: rest =>
    rw [tracksBases, tracksSize, List.length_append, List.length_append, length_stepsBases,
      length_tracksBases]
    split <;> rfl

end

/-- A plan hands out a name for every instruction. -/
theorem length_names (plan : Plan) : plan.names.length = stepsSize plan.steps + 2 := by
  rw [names, StepId.length_freshAll, bases, List.length_append, List.length_cons, length_stepsBases]
  rfl

theorem map_namingOf (names : List String) :
    (List.range' 0 names.length).map (namingOf names) = names := by
  refine List.ext_getElem (by simp) fun k hk hk' => ?_
  simp [namingOf, List.getD_eq_getElem?_getD, hk']

/-- The end of a program. -/
def ending (plan : Plan) : Instruction :=
  ⟨namingOf plan.names (1 + stepsSize plan.steps), "Workflow End", none, .mark⟩

/-- A program has its steps between its start and its end. -/
theorem program_eq (plan : Plan) :
    ∃ start : Instruction, start.operation = .start plan.trigger plan.contactRequired ∧
      start.id = namingOf plan.names 0 ∧
      plan.program = start :: (emitSteps (namingOf plan.names) 1 plan.ending.id plan.steps ++
        [plan.ending]) :=
  ⟨_, rfl, rfl, rfl⟩

/-- The ids of a program are its names. -/
theorem map_id_program_perm (plan : Plan) : (plan.program.map Instruction.id).Perm plan.names := by
  obtain ⟨start, -, hstart, hprogram⟩ := plan.program_eq
  have hsteps := map_id_emitSteps_perm (namingOf plan.names) 1 plan.ending.id plan.steps
  have hnames := map_namingOf plan.names
  rw [length_names, List.range'_succ, List.range'_1_concat, List.map_cons,
    List.map_append] at hnames
  have hperm := (hsteps.append_right [plan.ending.id]).cons (namingOf plan.names 0)
  rw [hprogram, List.map_cons, List.map_append, hstart]
  exact hperm.trans (List.Perm.of_eq (by simpa [ending, Nat.add_comm] using hnames))

/-- No two instructions of a program have the same id. -/
theorem nodup_map_id_program (plan : Plan) : (plan.program.map Instruction.id).Nodup :=
  (map_id_program_perm plan).nodup_iff.2 (StepId.nodup_freshAll [] plan.bases)

theorem getLast?_program (plan : Plan) : plan.program.getLast? = some plan.ending := by
  obtain ⟨start, -, -, hprogram⟩ := plan.program_eq
  rw [hprogram, ← List.cons_append, List.getLast?_concat]

end Plan
end Casework
