/-
  Casework.Proofs.Program.Simulation

  A program does what its definition says. Each part of a plan is simulated where its instructions
  stand: from the place of the first one a walk does the deeds of the part, and comes to the place
  behind it. A part that ends in a branch comes to the place that it was told to go on to, since its
  merge jumps there.
-/
import Casework.Proofs.Program.Choice
import Casework.Proofs.Program.Layout

namespace Casework

open Result Walk

-- ============================================================================
-- The numbers of the parts
-- ============================================================================

namespace Plan

/-- The numbers of actions that are numbered from `n` on. -/
def actionLabels (n : Nat) : List Action → List (Part × Nat)
  | [] => []
  | action :: rest => (.action action.id, n) :: actionLabels (n + 1) rest

mutual

/-- The numbers of the actions and the waits of a step that is numbered from `n` on. -/
def Step.labels (n : Nat) : Step → List (Part × Nat)
  | .standard head actions wait =>
    actionLabels n actions ++ wait.toList.map fun _ => (.step head.id, n + actions.length)
  | .branch _ _ _ tracks => tracksLabels (n + 2) tracks

/-- The numbers of the actions and the waits of steps. -/
def stepsLabels (n : Nat) : List Step → List (Part × Nat)
  | [] => []
  | step :: rest => step.labels n ++ stepsLabels (n + step.size) rest

/-- The numbers of the actions and the waits of tracks. -/
def tracksLabels (n : Nat) : List Track → List (Part × Nat)
  | [] => []
  | .mk _ steps :: rest =>
    stepsLabels n steps ++
      tracksLabels (n + stepsSize steps + (if skips steps rest then 1 else 0)) rest

end

end Plan

/-- Labels tell the names of their parts. -/
def Named (names : Part → String) (ids : Plan.Naming) (labels : List (Part × Nat)) : Prop :=
  ∀ part n, (part, n) ∈ labels → names part = ids n

-- ============================================================================
-- Deeds of a walk
-- ============================================================================

/-- Whether an instruction does something. -/
def Instruction.isDeed (i : Instruction) : Bool := deedKinds.contains i.operation.word

/-- Whether an instruction is a deed can be told from its document. -/
theorem isDeed_toJson (i : Instruction) : Walk.isDeed i.toJson = i.isDeed := by
  rw [Walk.isDeed, i.field_type]
  rfl

/-- The instructions at some places of a program that do something. -/
def Program.deeds (p : Program) (visited : List Nat) : List Instruction :=
  (visited.filterMap fun k => p[k]?).filter Instruction.isDeed

theorem Program.deeds_append (p : Program) (visited more : List Nat) :
    p.deeds (visited ++ more) = p.deeds visited ++ p.deeds more := by
  simp [Program.deeds]

theorem Program.getElem?_map_toJson {p : Program} {k : Nat} {i : Instruction} (h : p[k]? = some i) :
    (p.map Instruction.toJson)[k]? = some i.toJson := by
  rw [List.getElem?_map, h]
  rfl

variable {σ : Type}

/-- From place `q` on, a walk through a program does the same deeds as `run` and comes to place
`r`. -/
def Simulates (w : Walker σ) (p : Program) (table : Table Nat) (q r : Nat)
    (run : σ → Except Fault (Deeds σ)) : Prop :=
  ∀ s, ∃ visited s', Leads w (p.map Instruction.toJson) table q s visited r s' ∧
    run s = .ok (p.deeds visited, s')

theorem after_of_idle (w : Walker σ) {i : Instruction} (h : i.isDeed = false) (s : σ) :
    w.after i.toJson s = s := by
  rw [Walker.after, isDeed_toJson, h]
  rfl

theorem Program.deeds_of_idle {p : Program} {k : Nat} {i : Instruction} (hi : p[k]? = some i)
    (h : i.isDeed = false) : p.deeds [k] = [] := by
  simp [Program.deeds, hi, h]

namespace Simulates

variable {w : Walker σ} {p : Program} {table : Table Nat} {q r t : Nat}
  {run next : σ → Except Fault (Deeds σ)} {i : Instruction}

/-- To stay where one is does nothing. -/
theorem nothing (q : Nat) : Simulates w p table q q fun s => .ok ([], s) :=
  fun s => ⟨[], s, .stay q s, rfl⟩

/-- Two stretches of a walk do what the two runs do, one after the other. -/
theorem andThen (h : Simulates w p table q r run) (h' : Simulates w p table r t next) :
    Simulates w p table q t (Deeds.andThen run next) := by
  intro s
  obtain ⟨visited, s', hleads, hrun⟩ := h s
  obtain ⟨more, s'', hleads', hnext⟩ := h' s'
  refine ⟨visited ++ more, s'', hleads.trans hleads', ?_⟩
  rw [Deeds.andThen, hrun, Program.deeds_append]
  simp only [ok_bind, hnext, pure_eq_ok]

/-- A deed is done, and the walk goes on behind it. -/
theorem deed (a : Agent σ) (hi : p[q]? = some i) (hdeed : i.isDeed) :
    Simulates a.walker p table q (q + 1) (a.perform i) := by
  intro s
  have hafter : a.walker.after i.toJson s = a.walker.act i.toJson s := by
    rw [Walker.after, isDeed_toJson, if_pos hdeed]
  have hword : i.operation.word ≠ "condition" := by
    intro hword
    rw [Instruction.isDeed, hword] at hdeed
    exact absurd hdeed (by decide)
  refine ⟨[q], a.walker.act i.toJson s, ?_, by simp [Agent.perform, Program.deeds, hi, hdeed]⟩
  rw [← hafter]
  exact .single (Program.getElem?_map_toJson hi) (next_of_not_condition i q table _ hword)
    (Nat.lt_succ_self q)

/-- An instruction that does nothing leads to where the rest is simulated. -/
theorem choose (hi : p[q]? = some i) (hidle : i.isDeed = false)
    (h : ∀ s, ∃ place rest, Walk.next i.toJson q table (w.vars s) = .ok place ∧ q < place ∧
      Simulates w p table place r rest ∧ run s = rest s) :
    Simulates w p table q r run := by
  intro s
  obtain ⟨place, rest, hnext, hforward, hrest, hrun⟩ := h s
  obtain ⟨visited, s', hleads, hrest⟩ := hrest s
  have hafter := after_of_idle w hidle s
  have hdeeds : p.deeds (q :: visited) = p.deeds visited := by
    rw [← List.singleton_append, p.deeds_append, Program.deeds_of_idle hi hidle, List.nil_append]
  refine ⟨q :: visited, s', ?_, by rw [hrun, hrest, hdeeds]⟩
  rw [← hafter] at hnext hleads
  exact .go (Program.getElem?_map_toJson hi) (by rwa [hafter] at hnext ⊢) hforward hleads

/-- An instruction that is no deed is passed, and does nothing. -/
theorem pass (hi : p[q]? = some i) (hidle : i.isDeed = false) (hforward : q < r)
    (hnext : ∀ vars, Walk.next i.toJson q table vars = .ok r) :
    Simulates w p table q r fun s => .ok ([], s) :=
  choose hi hidle fun s => ⟨r, _, hnext (w.vars s), hforward, nothing r, rfl⟩

end Simulates

-- ============================================================================
-- Standard steps
-- ============================================================================

section Standard

open Plan

variable {p : Program} {table : Table Nat} {a : Agent σ} {ids : Naming}
    {head : StepHead} {n q : Nat}

theorem Named.left {names : Part → String} {labels more : List (Part × Nat)}
    (h : Named names ids (labels ++ more)) : Named names ids labels :=
  fun part n hmem => h part n (List.mem_append_left _ hmem)

theorem Named.right {names : Part → String} {labels more : List (Part × Nat)}
    (h : Named names ids (labels ++ more)) : Named names ids more :=
  fun part n hmem => h part n (List.mem_append_right _ hmem)

/-- Every action has its label. -/
theorem mem_actionLabels {actions : List Plan.Action} {k : Nat} {action : Plan.Action}
    (h : actions[k]? = some action) : (.action action.id, n + k) ∈ actionLabels n actions := by
  induction actions generalizing n k with
  | nil => simp at h
  | cons first rest ih =>
    rw [actionLabels]
    cases k with
    | zero =>
      obtain rfl : first = action := by simpa using h
      exact List.mem_cons_self
    | succ k =>
      have hrest := ih (n := n + 1) (by simpa using h)
      rw [Nat.add_assoc, Nat.add_comm 1 k] at hrest
      exact List.mem_cons_of_mem _ hrest

/-- The walk through the instructions of some actions does what the actions ask for, one after the
other. -/
theorem simulates_actions {actions : List Action} {planned : List Plan.Action}
    (hplanned : actions.mapM (actionOf a.keys) = .ok planned)
    (hat : p.HasAt q (emitActions ids head n planned))
    (hnamed : Named a.names ids (actionLabels n planned)) :
    Simulates a.walker p table q (q + planned.length) (a.ofActions head actions) := by
  induction actions generalizing planned n q with
  | nil =>
    cases mapM_eq_ok_iff.1 hplanned
    exact .nothing q
  | cons action rest ih =>
    cases mapM_eq_ok_iff.1 hplanned with
    | @cons _ first _ more hfirst hmore =>
      -- The first action has the first id, and its instruction is a deed: it does what the action
      -- asks for.
      obtain ⟨work, hwork, rfl⟩ := map_eq_ok_iff.1 hfirst
      have hname : a.names (.action action.id) = ids n := hnamed _ _ List.mem_cons_self
      have hrest := ih (mapM_eq_ok_iff.2 hmore) hat.tail
        fun part k hmem => hnamed part k (List.mem_cons_of_mem _ hmem)
      have hdeed : (instruction head (ids n) (caption work) (.work work)).isDeed := by
        cases work <;> rfl
      have hrun : a.ofAction head action =
          a.perform (instruction head (ids n) (caption work) (.work work)) := by
        funext s
        rw [Agent.ofAction, hwork, hname]
        rfl
      rw [List.length_cons, Nat.add_comm more.length 1, ← Nat.add_assoc, Agent.ofActions_cons]
      exact .andThen (hrun ▸ .deed a hat.head hdeed) hrest

/-- Only an action that creates a task is planned as one. -/
theorem workOf_eq_createTask {keys : Entries String} {kind : String} {config : Fields}
    {task : TaskPlan} (h : workOf keys kind config = .ok (.createTask task)) :
    kind = "create_task" ∧ taskOf keys config = .ok task := by
  unfold workOf at h
  split at h
  case h_1 =>
    obtain ⟨other, hother, hsame⟩ := map_eq_ok_iff.1 h
    cases hsame
    exact ⟨rfl, hother⟩
  case h_5 => cases h
  all_goals
    obtain ⟨other, -, hsame⟩ := map_eq_ok_iff.1 h
    cases hsame

/-- Planning finds the action that creates the task to wait for. -/
theorem findTask_eq {keys : Entries String} (id : String) (index : Nat) {actions : List Action}
    {planned : List Plan.Action}
    (h : List.Forall₂ (fun action result => actionOf keys action = .ok result) actions planned) :
    (creator? id actions = none ∧ findTask id index planned = none) ∨
      ∃ action position task, creator? id actions = some action ∧
        taskOf keys action.config = .ok task ∧
        findTask id index planned = some (index + position, task.dueDays) ∧
        planned[position]? = some ⟨id, .createTask task⟩ := by
  induction h generalizing index with
  | nil => exact Or.inl ⟨rfl, rfl⟩
  | @cons action result rest more hfirst _ ih =>
    rw [creator?, findTask]
    -- The last action with the id counts, so those behind are asked first.
    rcases ih (index + 1) with ⟨hnone, hnone'⟩ |
      ⟨found, position, task, hfound, htask, hplace, hmem⟩
    · obtain ⟨work, hwork, rfl⟩ := map_eq_ok_iff.1 hfirst
      rw [hnone, hnone', Option.none_or]
      -- No action behind has the id, and this one may have it.
      by_cases hcreates : action.kind = "create_task" ∧ action.id = id
      · obtain ⟨hkind, rfl⟩ := hcreates
        rw [hkind, workOf] at hwork
        obtain ⟨task, htask, rfl⟩ := map_eq_ok_iff.1 hwork
        exact Or.inr ⟨action, 0, task, by simp [hkind], htask, by simp, rfl⟩
      · refine Or.inl ⟨by simpa using hcreates, ?_⟩
        cases work with
        | createTask task =>
          have hid : action.id ≠ id := fun hid => hcreates ⟨(workOf_eq_createTask hwork).1, hid⟩
          simp [hid]
        | _ => rfl
    · refine Or.inr ⟨found, position + 1, task, by rw [hfound]; rfl, htask, ?_, by simpa using hmem⟩
      rw [hplace, Nat.add_assoc, Nat.add_comm 1]

/-- The fields of a configuration that make a task what it is. -/
structure Plan.Describes (keys : Entries String) (config : Fields) (task : TaskPlan) : Prop where
  title : textOf keys (config.value "title") = .ok task.title
  kind : taskKindOf (config.value "taskType") = .ok task.kind
  dueDays : daysOf (config.value "dueDays") = .ok task.dueDays
  priority : task.priority = (config.value "priority").orElse (.text "medium")
  requireComment : task.requireComment = (config.value "requireComment").truthy

/-- A planned task is as its config describes it. -/
theorem Plan.describes_of_taskOf {keys : Entries String} {config : Fields} {task : TaskPlan}
    (h : taskOf keys config = .ok task) : Describes keys config task := by
  rw [taskOf] at h
  obtain ⟨_, htitle, h⟩ := bind_eq_ok_iff.1 h
  obtain ⟨_, -, h⟩ := bind_eq_ok_iff.1 h
  obtain ⟨_, hkind, h⟩ := bind_eq_ok_iff.1 h
  obtain ⟨assignee, -, h⟩ := bind_eq_ok_iff.1 h
  cases assignee with
  | object fields =>
    obtain ⟨_, -, h⟩ := bind_eq_ok_iff.1 h
    obtain ⟨_, -, h⟩ := bind_eq_ok_iff.1 h
    obtain ⟨_, hdays, h⟩ := bind_eq_ok_iff.1 h
    cases h
    exact ⟨htitle, hkind, hdays, rfl, rfl⟩
  | _ => cases h

/-- A step waits for nothing, or for a task that one of its actions creates. -/
theorem waitOf_cases {keys : Entries String} {actions : List Action} {planned : List Plan.Action}
    {advancement : Advancement} {wait : Option Wait}
    (hplanned : actions.mapM (actionOf keys) = .ok planned)
    (h : waitOf advancement planned = .ok wait) :
    (¬ (advancement.kind == "when_task_completed") ∧ wait = none) ∨
      ∃ id action position task, advancement.kind == "when_task_completed" ∧
        advancement.config.value "taskActionId" = .text id ∧ creator? id actions = some action ∧
        taskOf keys action.config = .ok task ∧
        planned[position]? = some ⟨id, .createTask task⟩ ∧
        wait = some ⟨position, max (task.dueDays.getD defaultWaitDays) 1⟩ := by
  rw [waitOf] at h
  split at h
  case isFalse hkind =>
    cases h
    exact .inl ⟨hkind, rfl⟩
  case isTrue hkind =>
    -- The wait is for a task of the step; planned actions and actions have the same one for this
    -- id.
    obtain ⟨value, hvalue, h⟩ := bind_eq_ok_iff.1 h
    cases value with
    | text id =>
      rcases findTask_eq id 0 (mapM_eq_ok_iff.1 hplanned) with
        ⟨-, hnone⟩ | ⟨action, position, task, hcreator, htask, hfound, hplace⟩
      · simp only [hnone] at h
        cases h
      · simp only [hfound, Nat.zero_add] at h
        cases h
        exact .inr ⟨id, action, position, task, hkind, Json.value_of_requiredField hvalue,
          hcreator, htask,
          hplace, rfl⟩
    | _ => cases h

/-- The walk through a wait does what the condition for advancing asks for. -/
theorem simulates_wait {actions : List Action} {planned : List Plan.Action}
    {advancement : Advancement} {wait : Wait}
    (hplanned : actions.mapM (actionOf a.keys) = .ok planned)
    (hwait : waitOf advancement planned = .ok (some wait))
    (hi : p[q]? = some (instruction head (ids (n + planned.length)) "Wait for Task"
      (.awaitTask (ids (n + wait.position)) wait.days)))
    (hactions : Named a.names ids (actionLabels n planned))
    (hname : a.names (.step head.id) = ids (n + planned.length)) :
    Simulates a.walker p table q (q + 1) (a.ofWait head actions advancement) := by
  rcases waitOf_cases hplanned hwait with
    ⟨-, hnone⟩ | ⟨id, action, position, task, hkind, hvalue, hcreator, htask, hplace, hsome⟩
  · cases hnone
  · cases hsome
    -- The creator is named by the label of its action.
    have hcreated : a.names (.action id) = ids (n + position) :=
      hactions _ _ (mem_actionLabels hplace)
    -- So the deed of the instruction is the one that the definition asks for.
    have hrun : a.ofWait head actions advancement =
        a.perform (instruction head (ids (n + planned.length)) "Wait for Task"
          (.awaitTask (ids (n + position)) (max (task.dueDays.getD defaultWaitDays) 1))) := by
      funext s
      simp only [Agent.ofWait, hkind, hvalue, hcreator,
        (describes_of_taskOf htask).dueDays, hcreated,
        hname]
      rfl
    exact hrun ▸ .deed a hi rfl

/-- A step that waits for nothing goes on behind its actions. -/
theorem ofWait_of_waitOf_none {actions : List Action} {planned : List Plan.Action}
    {advancement : Advancement} (hplanned : actions.mapM (actionOf a.keys) = .ok planned)
    (hwait : waitOf advancement planned = .ok none) :
    a.ofWait head actions advancement = fun s => .ok ([], s) := by
  rcases waitOf_cases hplanned hwait with ⟨hkind, -⟩ | ⟨_, _, _, _, -, -, -, -, -, hsome⟩
  · funext s
    rw [Agent.ofWait, if_neg hkind]
  · cases hsome

/-- The walk through the instructions of a standard step does what the step says. -/
theorem simulates_standard {actions : List Action} {planned : List Plan.Action}
    {advancement : Advancement} {wait : Option Wait}
    (hplanned : actions.mapM (actionOf a.keys) = .ok planned)
    (hwait : waitOf advancement planned = .ok wait)
    (hat : p.HasAt q (emitStandard ids n head planned wait))
    (hnamed : Named a.names ids ((Plan.Step.standard head planned wait).labels n)) :
    Simulates a.walker p table q (q + (Plan.Step.standard head planned wait).size)
      (a.ofStep (.standard head actions advancement)) := by
  rw [Plan.Step.labels] at hnamed
  rw [Agent.ofStep_standard]
  cases wait with
  -- With a wait: the actions, and then the wait.
  | some wait =>
    rw [emitStandard] at hat
    have hi := hat.right.head
    rw [length_emitActions] at hi
    rw [Plan.Step.size, ← Nat.add_assoc]
    exact .andThen (simulates_actions hplanned hat.left hnamed.left)
      (simulates_wait hplanned hwait hi hnamed.left (hnamed.right _ _ (by simp)))
  | none =>
    rw [ofWait_of_waitOf_none hplanned hwait]
    rw [emitStandard] at hat
    cases planned with
    -- Nothing to do and nothing to wait for: the anchor is passed.
    | nil =>
      cases mapM_eq_ok_iff.1 hplanned
      have hnext : ∀ vars, next (instruction head (ids n) "Anchor" .mark).toJson q table vars =
          .ok (q + 1) :=
        fun vars => next_of_not_condition _ q table vars (by simp [instruction, Operation.word])
      exact .andThen (.nothing q) (.pass hat.head rfl (Nat.lt_succ_self q) hnext)
    -- Without a wait: the actions only.
    | cons first rest =>
      have hsize : (Plan.Step.standard head (first :: rest) none).size = (first :: rest).length :=
        Nat.max_eq_left (Nat.succ_le_of_lt (Nat.succ_pos _))
      rw [if_neg (by simp)] at hat
      rw [hsize]
      exact .andThen (simulates_actions hplanned hat hnamed.left) (.nothing _)

end Standard

-- ============================================================================
-- Steps
-- ============================================================================

section Steps

open Plan

/-- The table of a program leads from each id to the place of its instruction. -/
def Places (p : Program) (table : Table Nat) : Prop :=
  ∀ k i, p[k]? = some i → table.get? (.text i.id) = some k

variable {p : Program} {table : Table Nat} {a : Agent σ} {ids : Naming}

/-- Where code begins with the instruction of a number, its id leads to the place. -/
theorem Places.of_hasAt (hplaces : Places p table) {q : Nat} {code : List Instruction} {id : String}
    (hat : p.HasAt q code) (hhead : code.head?.map Instruction.id = some id) :
    table.get? (.text id) = some q := by
  cases code with
  | nil => simp at hhead
  | cons i rest =>
    obtain rfl : i.id = id := by simpa using hhead
    exact hplaces q i hat.head

/-- A jump is taken. -/
theorem simulates_goto {q r : Nat} {head : StepHead} {id caption target : String}
    (hi : p[q]? = some (instruction head id caption (.goto target)))
    (htarget : table.get? (.text target) = some r) (hforward : q < r) :
    Simulates a.walker p table q r fun s => .ok ([], s) :=
  .pass hi rfl hforward fun vars =>
    next_of_condition rfl (conditionTarget_goto target vars) htarget

/-- The place that steps lead to from place `q` on, when they are told to go on to `target`: only a
branch jumps there by itself. -/
def behind (steps : List Plan.Step) (q target : Nat) : Nat :=
  if endsStandard steps || steps.isEmpty then q + stepsSize steps else target

theorem behind_cons_cons (first second : Plan.Step) (rest : List Plan.Step) (q target : Nat) :
    behind (first :: second :: rest) q target =
      behind (second :: rest) (q + first.size) target := by
  rw [behind, behind, endsStandard, stepsSize, Nat.add_assoc]
  · rfl
  all_goals simp

theorem behind_self (steps : List Plan.Step) (q : Nat) :
    behind steps q (q + stepsSize steps) = q + stepsSize steps := by
  rw [behind]
  split <;> rfl

theorem behind_single (step : Plan.Step) (q : Nat) :
    behind [step] q (q + step.size) = q + step.size := by
  simpa [stepsSize] using behind_self [step] q

/-- The field that a branch is planned with is the one that its reference names. -/
theorem branchField?_of_fieldOf {condition : BranchCondition} {field : String}
    (h : fieldOf condition = .ok field) :
    Template.branchField? condition.variableRef = some field := by
  rw [fieldOf] at h
  split at h
  case h_1 other hother =>
    cases h
    exact hother
  case h_2 => cases h

mutual

/-- The walk through the instructions of a step does what the step says, and comes to what follows
it. -/
theorem simulates_step (hplaces : Places p table) {step : Casework.Step} {planned : Plan.Step}
    (hplanned : stepOf a.keys step = .ok planned) {n q : Nat} {follow : String} {target : Nat}
    (hat : p.HasAt q (emitStep ids n follow planned))
    (hfollow : table.get? (.text follow) = some target)
    (hforward : q + planned.size ≤ target) (hnamed : Named a.names ids (planned.labels n)) :
    Simulates a.walker p table q (behind [planned] q target) (a.ofStep step) := by
  cases step with
  | standard head actions advancement =>
    obtain ⟨works, wait, hworks, hwait, rfl⟩ := stepOf_standard_eq_ok hplanned
    rw [emitStep] at hat
    exact simulates_standard hworks hwait hat hnamed
  | branch head condition tracks =>
    obtain ⟨field, comparison, guards, planned, hfield, hguards, htracks, rfl⟩ :=
      stepOf_branch_eq_ok hplanned
    rw [emitStep] at hat
    rw [Plan.Step.size] at hforward
    have hcode := hat.left.tail
    have hmerge := hat.right.head
    rw [List.length_cons, length_emitTracks, Nat.add_comm _ 1, ← Nat.add_assoc] at hmerge
    obtain ⟨hlength, hchoice⟩ := choice?_eq_guardIndex? hguards
    -- The branch leads to the chosen track, the track to the merge, and the merge to the target.
    refine .choose hat.left.head rfl fun s => ?_
    obtain ⟨index, hindex, hchosen, hguard⟩ :=
      hchoice (Template.render field (a.walker.vars s))
    obtain ⟨guard, start, place, hentry, hplace, htarget, htrack⟩ :=
      simulates_track hplaces htracks hcode (hplaces _ _ hmerge) hnamed hindex
    have hrest := htrack.andThen (simulates_goto hmerge hfollow (by omega))
    rw [Deeds.andThen_nothing] at hrest
    rw [← map_fst_entries (n + 2) htracks hlength] at hguard
    refine ⟨place, _, ?_, by omega, hrest, ?_⟩
    · refine next_of_condition rfl (conditionTarget_branch ..) ?_
      rw [targetOf_targets ids hguard hentry]
      exact htarget
    · simp only [Agent.ofStep, branchField?_of_fieldOf hfield, hchosen]

/-- The walk through the instructions of some steps does what the steps say, and comes to what
follows them. -/
theorem simulates_steps (hplaces : Places p table) {steps : List Casework.Step}
    {planned : List Plan.Step} (hplanned : stepsOf a.keys steps = .ok planned) {n q : Nat}
    {follow : String} {target : Nat} (hat : p.HasAt q (emitSteps ids n follow planned))
    (hfollow : table.get? (.text follow) = some target) (hforward : q + stepsSize planned ≤ target)
    (hnamed : Named a.names ids (stepsLabels n planned)) :
    Simulates a.walker p table q (behind planned q target) (a.ofSteps steps) := by
  match steps with
  | [] =>
    cases hplanned
    rw [Agent.ofSteps_nil]
    exact .nothing q
  | step :: rest =>
    obtain ⟨first, more, hfirst, hmore, rfl⟩ := stepsOf_cons_eq_ok hplanned
    rw [emitSteps] at hat
    rw [stepsSize] at hforward
    rw [stepsLabels] at hnamed
    rw [Agent.ofSteps_cons]
    cases more with
    -- The last step is followed by what follows all of them.
    | nil =>
      rw [eq_nil_of_stepsOf hmore, Agent.ofSteps_nil, Deeds.andThen_nothing]
      exact simulates_step hplaces hfirst hat.left hfollow hforward hnamed.left
    -- Every other step is followed by the next one.
    | cons second more =>
      have hlast := hat.right
      rw [length_emitStep] at hlast
      have hplace := hplaces.of_hasAt hlast (head?_emitSteps ids _ follow (by simp))
      have hstep := simulates_step hplaces hfirst hat.left hplace (Nat.le_refl _) hnamed.left
      have hrest := simulates_steps hplaces hmore hlast hfollow (by omega) hnamed.right
      rw [behind_single] at hstep
      rw [behind_cons_cons]
      exact hstep.andThen hrest

/-- The walk from where a track begins does what the track says, and comes to the merge. -/
theorem simulates_track (hplaces : Places p table) {tracks : List Casework.Track}
    {guards : List (Option String)} {planned : List Plan.Track}
    (hplanned : tracksOf a.keys guards tracks = .ok planned) {head : StepHead} {n q : Nat}
    {merge : String} (hat : p.HasAt q (emitTracks ids head merge n planned))
    (hmerge : table.get? (.text merge) = some (q + tracksSize planned))
    (hnamed : Named a.names ids (tracksLabels n planned)) {index : Nat}
    (hindex : index < tracks.length) :
    ∃ guard start place, (entries n planned)[index]? = some (guard, start) ∧ q ≤ place ∧
      table.get? (.text (ids start)) = some place ∧
      Simulates a.walker p table place (q + tracksSize planned) (a.ofTrack tracks index) := by
  match tracks with
  | [] => simp at hindex
  | .mk id label steps :: rest =>
    obtain ⟨first, more, hfirst, hsome, hmore, rfl⟩ := tracksOf_cons_eq_ok hplanned
    rw [emitTracks] at hat
    rw [tracksLabels] at hnamed
    cases index with
    | succ index =>
      have hlast := hat.right
      have hsize : ∀ b : Bool, (if b then [instruction head (ids (n + stepsSize first))
          "Skip to Merge" (.goto merge)] else []).length = if b then 1 else 0 := by
        intro b
        cases b <;> rfl
      rw [List.length_append, length_emitSteps, hsize, ← Nat.add_assoc] at hlast
      rw [tracksSize, ← Nat.add_assoc, ← Nat.add_assoc] at hmerge ⊢
      obtain ⟨guard, start, place, hentry, hplace, htarget, hsim⟩ :=
        simulates_track hplaces hmore hlast hmerge hnamed.right (Nat.lt_of_succ_lt_succ hindex)
      rw [Agent.ofTrack_succ]
      exact ⟨guard, start, place, hentry, by omega, htarget, hsim⟩
    | zero =>
      have hplace := hplaces.of_hasAt hat.left.left (head?_emitSteps ids n merge hsome)
      rw [Agent.ofTrack_zero]
      refine ⟨_, n, q, rfl, Nat.le_refl q, hplace, ?_⟩
      have hforward : q + stepsSize first ≤
          q + tracksSize (.mk guards.head?.join first :: more) := by
        rw [tracksSize]
        omega
      have hsteps := simulates_steps hplaces hfirst hat.left.left hmerge hforward hnamed.left
      have hempty : first.isEmpty = false := List.isEmpty_eq_false_iff.2 hsome
      rw [behind, hempty, Bool.or_false] at hsteps
      cases hends : endsStandard first with
      | false =>
        -- The track ends in a branch, whose own merge went to the merge already.
        rwa [hends, if_neg (by decide)] at hsteps
      | true =>
        rw [hends, if_pos rfl] at hsteps
        cases more with
        | nil =>
          -- Behind the last track stands the merge.
          have hlast : tracksSize [.mk guards.head?.join first] = stepsSize first := by
            simp [tracksSize, skips]
          rwa [hlast]
        | cons second more =>
          have hskips : skips first (second :: more) = true := by rw [skips, hends]; rfl
          have hskip := hat.left.right
          rw [if_pos hskips, length_emitSteps] at hskip
          have hsize : q + stepsSize first <
              q + tracksSize (.mk guards.head?.join first :: second :: more) := by
            rw [tracksSize, if_pos hskips]
            omega
          have hjump := hsteps.andThen (simulates_goto hskip.head hmerge hsize)
          rwa [Deeds.andThen_nothing] at hjump

end

end Steps

end Casework
