/-
  Casework.Proofs.Run.Wait

  Runs wait for tasks that they have created. A run goes from place to place; whatever its variables
  are, it comes to a wait from the creation of the task. The id of the task is put under the name of
  the step that created it, and nothing that is done on the way to the wait puts anything else
  there: other steps have other ids, and decisions are put under other names.
-/
import Casework.Proofs.Program.Wait
import Casework.Proofs.Run.Report
import Casework.Proofs.Run.Setup
import Casework.Proofs.Run.Whole

namespace Casework

open Result

variable {σ : Type}

/-- The failure is not that of a wait for a task that no step has created. -/
def Failure.Attended (f : Failure) : Prop := ∀ step creator, f ≠ Run.orphaned step creator

/-- The world names the tasks that it creates: it answers with an id that is not empty. -/
def World.NamesTasks (world : World σ) : Prop :=
  ∀ params outside answer, (world.perform ⟨.createTask, params⟩ outside).1 = .ok answer →
    ∃ task, task ≠ "" ∧ answer.requiredField "taskId" = .ok (.text task)

/-- The failure is one of work, or a fault. It is no failure that a run finds by itself. -/
def Failure.IsMet : Failure → Prop
  | .activity | .fault _ => True
  | _ => False

/-- What a step can meet with has been attended to. -/
theorem Failure.IsMet.attended {f : Failure} (h : f.IsMet) : f.Attended := by
  rintro step creator rfl
  exact h

namespace Run

/-- So has the limit. -/
theorem attended_exceeded : exceeded.Attended := by
  intro step creator h
  have htext := congrArg String.toList (Failure.application.inj h).1
  simp only [String.toList_append] at htext
  exact absurd (congrArg List.head? htext) (by simp)

-- ============================================================================
-- What lasts on the way
-- ============================================================================

section Lasting

variable (world : World σ)

/-- To have some work done leaves the variables and the number of steps. -/
theorem seen_perform (activity : Activity) (params : Fields) (s : RunState σ) :
    (outcome (perform world activity params) s).2.vars = s.vars ∧
      (outcome (perform world activity params) s).2.stepsRun = s.stepsRun := by
  rw [outcome_perform]
  cases (world.perform ⟨activity, params⟩ s.outside).1 <;> exact ⟨rfl, rfl⟩

/-- So does a wait. -/
theorem seen_await (seconds : Int) (holds : Inbox → Bool) (s : RunState σ) :
    (outcome (await world seconds holds) s).2.vars = s.vars ∧
      (outcome (await world seconds holds) s).2.stepsRun = s.stepsRun := by
  rw [outcome_await]
  split
  · exact ⟨rfl, rfl⟩
  · cases (s.inbox.receiveAll (world.deliver s.outside).1).2 <;> exact ⟨rfl, rfl⟩

/-- Work that fails is a failure that a step can meet with. -/
theorem isMet_perform (activity : Activity) (params : Fields) (s : RunState σ) (f : Failure)
    (h : (outcome (perform world activity params) s).1 = .error f) : f.IsMet := by
  rw [outcome_perform] at h
  split at h
  · cases h
  · cases h
    trivial

/-- A wait fails only by a fault of what comes during it. -/
theorem isMet_await (seconds : Int) (holds : Inbox → Bool) (s : RunState σ) (f : Failure)
    (h : (outcome (await world seconds holds) s).1 = .error f) : f.IsMet := by
  rw [outcome_await] at h
  split at h
  · cases h
  · split at h
    · cases h
    · cases h
      trivial

/-- What is said of the variables and of the number of steps endures if putting variables leaves it
so. Work and waits change neither, and they fail only if the work does, or because of a fault. -/
theorem enduring_seen {puts : String → Prop} (inv : Variables → Nat → Prop)
    (hput : ∀ vars count path value, puts path → inv vars count → inv (vars.put path value) count) :
    Enduring world (fun _ => True) (fun _ => True) puts (fun s => inv s.vars s.stepsRun)
      fun f s => f.IsMet ∧ inv s.vars s.stepsRun := by
  -- Work and waits leave both as they are; of what a step does only variables count.
  have hperform : ∀ {activity params},
      Keeps (perform world activity params) (fun s => inv s.vars s.stepsRun)
        fun f s => f.IsMet ∧ inv s.vars s.stepsRun := by
    intro activity params
    refine .of_always (fun s hs => ?_) (isMet_perform world activity params)
    obtain ⟨hvars, hcount⟩ := seen_perform world activity params s
    rwa [hvars, hcount]
  have hawait : ∀ {seconds holds},
      Keeps (await world seconds holds) (fun s => inv s.vars s.stepsRun)
        fun f s => f.IsMet ∧ inv s.vars s.stepsRun := by
    intro seconds holds
    refine .of_always (fun s hs => ?_) (isMet_await world seconds holds)
    obtain ⟨hvars, hcount⟩ := seen_await world seconds holds s
    rwa [hvars, hcount]
  exact {
    steady := fun s s' _ _ hvars hcount hs => by rwa [hvars, hcount]
    put := fun s path value => hput s.vars s.stepsRun path value
    work := fun _ _ => hperform
    create := fun _ => hperform
    report := fun _ => hperform
    await := hawait
    fault := fun _ _ hs => ⟨trivial, hs⟩ }

/-- What is said of the variables lasts if putting variables leaves it so. No work and no wait fails
for want of a task. -/
theorem lasting_vars {puts : String → Prop} (inv : Variables → Prop)
    (hput : ∀ vars path value, puts path → inv vars → inv (vars.put path value)) :
    Lasting world (fun _ => True) (fun _ => True) puts (fun s => inv s.vars)
      fun f s => f.Attended ∧ inv s.vars where
  toEnduring := (enduring_seen world (fun vars _ => inv vars) fun vars _ => hput vars).mono
    fun _ _ h => ⟨h.1.attended, h.2⟩
  enter _ _ hs := hs

/-- Whatever a run does, it fails only in ways that are attended to. -/
theorem lasting_attended :
    Lasting world (fun _ => True) (fun _ => True) (fun _ => True) (fun _ => True)
      fun f _ => f.Attended :=
  (lasting_vars world (fun _ => True) fun _ _ _ _ _ => trivial).mono fun _ _ h => h.1

end Lasting

-- ============================================================================
-- Ways of a run
-- ============================================================================

/-- A run carries out the step at its place without ending, and goes on at the place that the step
leads to. -/
def Goes (world : World σ) (s : Setup) (here there : Nat × RunState σ) : Prop :=
  ∃ step id, s.steps[here.1]? = some step ∧ step.requiredField "id" = .ok id ∧
    outcome (execute world s.base s.contact s.statuses step) (entering id here.2) =
      (.ok false, there.2) ∧
    Walk.next step here.1 s.table there.2.vars = .ok there.1

/-- A run comes from one place to another one, in some steps or none. -/
abbrev Reaches (world : World σ) (s : Setup) : Nat × RunState σ → Nat × RunState σ → Prop :=
  Relation.ReflTransGen (Goes world s)

/-- A run that begins in a state at the first place comes to a place, in a state. -/
abbrev Comes (world : World σ) (s : Setup) (begun : RunState σ) (place : Nat) (r : RunState σ) :
    Prop :=
  Reaches world s (0, begun) (place, r)

section Ways

variable {world : World σ} {s : Setup}

/-- A run does from one place what it does from the next one. -/
theorem Goes.outcome_eq {a b : Nat} {r r' : RunState σ} (h : Goes world s (a, r) (b, r'))
    (left : Nat) :
    outcome (interpret world s.base s.contact s.statuses s.steps s.table (left + 1) a) r =
      outcome (interpret world s.base s.contact s.statuses s.steps s.table left b) r' := by
  obtain ⟨step, id, hsome, hid, hexecute, hnext⟩ := h
  rw [outcome_interpret_succ hsome hid, hexecute]
  dsimp only at hnext ⊢
  rw [hnext]

/-- A run does from its beginning what it does from a place that it comes to. -/
theorem Reaches.outcome_eq {here there : Nat × RunState σ} (h : Reaches world s here there) :
    ∃ more, ∀ left,
      outcome (interpret world s.base s.contact s.statuses s.steps s.table (left + more) here.1)
          here.2 =
        outcome (interpret world s.base s.contact s.statuses s.steps s.table left there.1)
          there.2 := by
  induction h with
  | refl => exact ⟨0, fun _ => rfl⟩
  | tail _ hgoes ih =>
    obtain ⟨more, hmore⟩ := ih
    refine ⟨more + 1, fun left => ?_⟩
    rw [Nat.add_comm more 1, ← Nat.add_assoc, hmore, hgoes.outcome_eq]

/-- A step goes on at one place only. -/
theorem Goes.unique {here there other : Nat × RunState σ} (h : Goes world s here there)
    (h' : Goes world s here other) : there = other := by
  obtain ⟨step, id, hsome, hid, hexecute, hnext⟩ := h
  obtain ⟨step', id', hsome', hid', hexecute', hnext'⟩ := h'
  rw [hsome, Option.some.injEq] at hsome'
  subst hsome'
  rw [hid, Except.ok.injEq] at hid'
  subst hid'
  rw [hexecute, Prod.mk.injEq] at hexecute'
  obtain ⟨-, hstate⟩ := hexecute'
  rw [← hstate, hnext, Except.ok.injEq] at hnext'
  exact Prod.ext hnext' hstate

/-- A run that goes on from a place comes nowhere else but by the next one. -/
theorem Goes.eq_or_reaches {here next there : Nat × RunState σ} (h : Goes world s here next)
    (hreaches : Reaches world s here there) : there = here ∨ Reaches world s next there := by
  rcases Relation.ReflTransGen.cases_head hreaches with rfl | ⟨other, hother, hrest⟩
  · exact .inl rfl
  · rw [h.unique hother]
    exact .inr hrest

/-- A run goes where its program leads. -/
theorem Goes.follows {a b : Nat} {r r' : RunState σ} (h : Goes world s (a, r) (b, r')) :
    Walk.Follows s.steps s.table a b := by
  obtain ⟨step, id, hsome, -, -, hnext⟩ := h
  exact ⟨step, r'.vars, hsome, hnext⟩

end Ways

-- ============================================================================
-- Creating tasks
-- ============================================================================

/-- From one state to another one a run has called the world once, to create a task for a step, and
the world has answered with the id of the task. -/
def Creates (world : World σ) (r r' : RunState σ) (creator task : String) : Prop :=
  ∃ params answer, params.value "step_id" = .text creator ∧
    r'.calls = r.calls ++ [(⟨.createTask, params⟩, none)] ∧
    (world.perform ⟨.createTask, params⟩ r.outside).1 = .ok answer ∧
    answer.requiredField "taskId" = .ok (.text task)

/-- A run that has come to a place has, on its way, created a task for a step at place `m`. -/
def HasCreated (world : World σ) (s : Setup) (begun : RunState σ) (m : Nat) (creator task : String)
    (there : Nat × RunState σ) : Prop :=
  ∃ r r', Comes world s begun m r ∧ Goes world s (m, r) (m + 1, r') ∧
    Creates world r r' creator task ∧
    Reaches world s (m + 1, r') there

/-- A wait for the task of a step is carried out as a wait for the task with this id. -/
def Awaits (world : World σ) (s : Setup) (wait : Instruction) (creator task : String)
    (r : RunState σ) : Prop :=
  outcome (execute world s.base s.contact s.statuses wait.toJson) (entering (.text wait.id) r) =
    outcome (awaitKnown world s.base s.statuses (.text wait.id) wait.operation.config
      (.text creator)
      (.text task)) (entering (.text wait.id) r)

section Creation

variable {world : World σ} {base : Base} {contact statuses : Json}

/-- To render a task changes nothing. -/
theorem state_renderedTask {config : Json} {r r' : RunState σ} {fields : Fields}
    (h : outcome (renderedTask config) r = (.ok fields, r')) : r' = r := by
  have hkeeps : Keeps (renderedTask config : Act σ Fields) (fun s => s = r) fun _ _ => True :=
    .renderedTask (fun _ _ _ => trivial) config
  have hafter := hkeeps r rfl
  rw [h] at hafter
  exact hafter

/-- Creating a task puts the id that the world gives it under the name of the step. -/
theorem created_of_createTask (hworld : world.NamesTasks) {creator : String} {config : Json}
    {r r' : RunState σ}
    (h : outcome (createTask world base contact (.text creator) config) r = (.ok (), r')) :
    ∃ task, task ≠ "" ∧ Creates world r r' creator task ∧
      r'.vars.value (taskPath (.text creator) "taskId") = .text task := by
  rw [createTask] at h
  obtain ⟨fields, rendered, hrendered, hask⟩ := outcome_bind_eq_ok_iff.1 h
  rw [state_renderedTask hrendered] at hask
  obtain ⟨answer, asked, hperform, hput⟩ := outcome_bind_eq_ok_iff.1 hask
  -- The call is answered, and the answer names the task.
  rw [outcome_perform] at hperform
  split at hperform
  case h_2 => cases hperform
  case h_1 other hanswer =>
    cases hperform
    obtain ⟨task, hne, htask⟩ := hworld _ _ _ hanswer
    have hkey : (Json.text task).key = .ok (.text task) := rfl
    rw [outcome_lift_bind htask, setVariable, outcome_bind, outcome_modify] at hput
    dsimp only at hput
    rw [outcome_lift_bind hkey, outcome_modify] at hput
    cases hput
    refine ⟨task, hne, ⟨_, _, rfl, RunState.calls_note_called .., hanswer, htask⟩, ?_⟩
    show Entries.value (Entries.put _ _ _) _ = _
    rw [Entries.value, Entries.get?_put, if_pos rfl]
    rfl

end Creation

-- ============================================================================
-- Carrying out instructions
-- ============================================================================

section Instructions

variable {world : World σ} {base : Base} {contact statuses : Json} {i : Instruction}

/-- To carry out the creation of a task is to create it, and to go on. -/
theorem outcome_execute_create {task : TaskPlan} (h : i.operation = .work (.createTask task))
    (r : RunState σ) :
    outcome (execute world base contact statuses i.toJson) r =
      outcome (createTask world base contact (.text i.id)
        ((i.toJson.field "config").orElse (.obj [])) >>= fun _ => pure false) r := by
  rw [execute, outcome_lift_bind i.fieldOf_type, h, i.field_id]
  rfl

/-- To carry out a wait is to wait for the task that it names. -/
theorem outcome_execute_wait {creator : String} {days : Nat}
    (h : i.operation = .awaitTask creator days) (r : RunState σ) :
    outcome (execute world base contact statuses i.toJson) r =
      outcome (awaitTask world base statuses (.text i.id) i.operation.config) r := by
  rw [execute, outcome_lift_bind i.fieldOf_type, i.field_id, i.field_config, h]
  rfl

/-- Only instructions that create a task are carried out so. -/
theorem exists_createTask_of_type (h : i.toJson.fieldOf "type" = .ok (.text "assign_task")) :
    ∃ task, i.operation = .work (.createTask task) := by
  rw [i.fieldOf_type] at h
  have hword : i.operation.word = "assign_task" := by simpa using h
  match hoperation : i.operation with
  | .work (.createTask task) => exact ⟨task, rfl⟩
  | .work (.sendMail _) | .work (.notify _) | .work (.setStatus _) | .start .. | .mark
  | .awaitTask .. | .branch .. | .goto _ =>
    rw [hoperation] at hword
    exact absurd hword (by simp [Operation.word, Work.word])

/-- Only waits are carried out as waits. -/
theorem exists_awaitTask_of_type (h : i.toJson.fieldOf "type" = .ok (.text "wait_for_task")) :
    ∃ creator days, i.operation = .awaitTask creator days := by
  rw [i.fieldOf_type] at h
  have hword : i.operation.word = "wait_for_task" := by simpa using h
  match hoperation : i.operation with
  | .awaitTask creator days => exact ⟨creator, days, rfl⟩
  | .work (.createTask _) | .work (.sendMail _) | .work (.notify _) | .work (.setStatus _)
  | .start .. | .mark | .branch .. | .goto _ =>
    rw [hoperation] at hword
    exact absurd hword (by simp [Operation.word, Work.word])

/-- Tasks of different steps are put under different names. -/
theorem taskPath_injective {a b : String}
    (h : taskPath (.text a) "taskId" = taskPath (.text b) "taskId") : a = b := by
  have htext := congrArg String.toList h
  simp only [taskPath, Json.plain, String.toList_append] at htext
  exact String.toList_inj.1 (List.append_cancel_right (List.append_cancel_right htext))

/-- What is decided about a task is never put under the name of a task. -/
theorem taskPath_ne {name : String} (hname : name ∈ decisionNames) (step creator : Json) :
    taskPath step name ≠ taskPath creator "taskId" := by
  intro h
  have hlast := congrArg (fun path => path.toList.getLast?) h
  simp only [taskPath, String.toList_append] at hlast
  simp only [decisionNames, List.mem_cons, List.not_mem_nil, or_false] at hname
  rcases hname with rfl | rfl | rfl <;> simp at hlast

/-- An instruction puts something under a path: the id of the task that it creates, or what was
decided about the task that it waits for. -/
def Puts (i : Instruction) (path : String) : Prop :=
  (∃ task, i.operation = .work (.createTask task) ∧ path = taskPath (.text i.id) "taskId") ∨
    ∃ creator days, i.operation = .awaitTask creator days ∧
      ∃ name ∈ decisionNames, path = taskPath (.text creator) name

/-- A step that does not end the run leaves what is under the paths that it does not put. -/
theorem value_of_execute_of_not_puts {path : String} (hputs : ¬ Puts i path) {r r' : RunState σ}
    (h : outcome (execute world base contact statuses i.toJson) r = (.ok false, r')) :
    r'.vars.value path = r.vars.value path := by
  -- Other variables do not matter.
  have hput : ∀ (vars : Variables) (other : String) (value : Json), other ≠ path →
      vars.value path = r.vars.value path →
        (vars.put other value).value path = r.vars.value path := by
    intro vars other value hother hvars
    rwa [Entries.value, Entries.get?_put, if_neg (Ne.symm hother)]
  have hlasting : Lasting world (fun _ => True) (fun _ => True) (fun other => other ≠ path)
      (fun s => s.vars.value path = r.vars.value path) fun _ _ => True :=
    (lasting_vars world (fun vars => vars.value path = r.vars.value path) hput).mono
      fun _ _ _ => trivial
  -- A creation puts the id of its task, a wait what was decided; both put other variables than this
  -- one.
  have hexecute : Ensures (execute world base contact statuses i.toJson)
      (fun s => s.vars.value path = r.vars.value path)
      (Stepped (fun s => s.vars.value path = r.vars.value path)
        (fun s => s.vars.value path = r.vars.value path) fun _ _ => True) := by
    refine hlasting.execute contact statuses (fun htype => ?_) (fun _ _ _ => trivial)
      (fun _ _ _ => trivial) fun htype => ?_
    · obtain ⟨task, hcreates⟩ := exists_createTask_of_type htype
      rw [i.field_id]
      exact fun hpath => hputs (.inl ⟨task, hcreates, hpath.symm⟩)
    · obtain ⟨creator, days, hwait⟩ := exists_awaitTask_of_type htype
      refine hlasting.awaitTask trivial (fun other hother name hname => ?_)
        (fun _ _ _ _ _ => trivial)
        fun task => hlasting.timeOut (fun _ _ _ _ _ => trivial) task
      rw [i.field_config, hwait] at hother
      obtain rfl : other = .text creator := by
        cases hother
        rfl
      exact fun hpath => hputs (.inr ⟨creator, days, hwait, name, hname, hpath.symm⟩)
  have hafter := hexecute r rfl
  rw [h] at hafter
  exact hafter

/-- A step that does not end the run keeps the tasks of all other steps. -/
theorem value_of_execute {creator : String} (hne : i.id ≠ creator) {r r' : RunState σ}
    (h : outcome (execute world base contact statuses i.toJson) r = (.ok false, r')) :
    r'.vars.value (taskPath (.text creator) "taskId") =
      r.vars.value (taskPath (.text creator) "taskId") := by
  refine value_of_execute_of_not_puts ?_ h
  rintro (⟨_, -, hpath⟩ | ⟨_, _, -, name, hname, hpath⟩)
  · exact hne (taskPath_injective hpath).symm
  · exact taskPath_ne hname _ _ hpath.symm

end Instructions

-- ============================================================================
-- Runs of programs
-- ============================================================================

section Runs

variable {world : World σ} {s : Setup} {p : Program} (hworld : world.NamesTasks)
  (hsteps : s.steps = p.map Instruction.toJson) (hplaces : Places p s.table)
  (hlinked : p.LinkedFrom 0 p)

include hworld hsteps hplaces hlinked

/-- A run that comes to a place behind the creation of a task, up to the wait for it, has created
the task, and still knows it. -/
theorem created_of_reaches {m j : Nat} {creator : String} (hawaited : p.Awaited m j creator)
    {begun : RunState σ} {there : Nat × RunState σ} (hreaches : Reaches world s (0, begun) there)
    (hm : m < there.1) (hj : there.1 ≤ j) :
    ∃ task, task ≠ "" ∧ HasCreated world s begun m creator task there ∧
      there.2.vars.value (taskPath (.text creator) "taskId") = .text task := by
  obtain ⟨c, plan, hc, hid, hcreates⟩ := hawaited.creates
  induction hreaches with
  | refl => exact absurd hm (Nat.not_lt_zero m)
  | @tail here there hhere hgoes ih =>
    obtain ⟨a, r⟩ := here
    obtain ⟨b, r'⟩ := there
    have hfollows := hgoes.follows
    rw [hsteps] at hfollows
    -- Up to the wait, a run comes to a place from the one before it only.
    obtain rfl : b = a + 1 := hawaited.succ_of_follows hlinked hplaces hfollows hm hj
    have hcarriedOut := hgoes
    obtain ⟨step, stepId, hsome, -, hexecute, -⟩ := hcarriedOut
    dsimp only at hsome hexecute hm hj ⊢
    rw [hsteps] at hsome
    obtain ⟨i, hi, rfl⟩ := Program.exists_getElem?_of_map hsome
    by_cases ha : m = a
    · -- The step that was carried out is the one that creates the task.
      subst ha
      rw [hc, Option.some.injEq] at hi
      subst hi
      rw [outcome_execute_create hcreates, hid] at hexecute
      obtain ⟨_, created, hcreated, hgoesOn⟩ := outcome_bind_eq_ok_iff.1 hexecute
      cases hgoesOn
      obtain ⟨task, hne, htask, hknown⟩ := created_of_createTask hworld hcreated
      exact ⟨task, hne, ⟨r, _, hhere, hgoes, htask, .refl⟩, hknown⟩
    · obtain ⟨task, hne, ⟨r₁, r₂, hbefore, hcreation, htask, hafter⟩, hknown⟩ :=
        ih (by dsimp only; omega) (by dsimp only; omega)
      have hother : i.id ≠ creator := fun hsame =>
        ha (hplaces.eq hi hc (hsame.trans hid.symm)).symm
      refine ⟨task, hne, ⟨r₁, r₂, hbefore, hcreation, htask, hafter.tail hgoes⟩, ?_⟩
      exact (value_of_execute hother hexecute).trans hknown

/-- A run that comes to a wait waits for the task that it has created. -/
theorem awaits_of_comes {m j : Nat} {creator : String} (hawaited : p.Awaited m j creator)
    {i : Instruction} {days : Nat} (hwait : i.operation = .awaitTask creator days)
    {begun r : RunState σ}
    (hcomes : Comes world s begun j r) :
    ∃ task, task ≠ "" ∧ HasCreated world s begun m creator task (j, r) ∧
      Awaits world s i creator task r := by
  obtain ⟨task, hne, hcreated, hknown⟩ :=
    created_of_reaches hworld hsteps hplaces hlinked hawaited hcomes hawaited.before (Nat.le_refl j)
  refine ⟨task, hne, hcreated, ?_⟩
  have hcreator : i.operation.config.fieldOf "taskStepId" = .ok (.text creator) := by
    rw [hwait]
    rfl
  have htruthy : (Json.text task).truthy = true := by
    simpa [Json.truthy] using hne
  dsimp only at hknown
  rw [Awaits, outcome_execute_wait hwait, outcome_awaitTask world s.base s.statuses _ hcreator,
    show (entering (.text i.id) r).vars = r.vars from rfl, hknown, if_pos htruthy]

/-- A step of a program that a run comes to does not fail for want of a task. -/
theorem attended_execute {index : Nat} {i : Instruction} (hi : p[index]? = some i)
    {begun r : RunState σ} (hcomes : Comes world s begun index r) :
    Stepped (fun _ => True) (fun _ => True) (fun f _ => f.Attended)
      (outcome (execute world s.base s.contact s.statuses i.toJson) (entering (.text i.id) r)).1
      (outcome (execute world s.base s.contact s.statuses i.toJson)
        (entering (.text i.id) r)).2 := by
  have hlasting := lasting_attended world
  by_cases hwaits : ∃ creator days, i.operation = .awaitTask creator days
  · obtain ⟨creator, days, hwait⟩ := hwaits
    obtain ⟨m, hawaited⟩ := hlinked.exists_awaited hi hwait
    obtain ⟨task, -, -, hawaits⟩ :=
      awaits_of_comes hworld hsteps hplaces hlinked hawaited hwait hcomes
    rw [hawaits]
    exact hlasting.awaitKnown trivial (fun _ _ => trivial)
      (fun task => hlasting.timeOut (fun _ _ _ _ _ => trivial) task) _ _ trivial
  · exact hlasting.execute s.contact s.statuses (fun _ => trivial) (fun _ _ _ => trivial)
      (fun _ _ _ => trivial)
      (fun htype => absurd (exists_awaitTask_of_type htype) hwaits) _ trivial

/-- Carrying out a program, a run never fails for want of a task. -/
theorem attended_interpret (left : Nat) :
    Ensures (interpret world s.base s.contact s.statuses s.steps s.table left 0) (fun _ => True)
      (Stepped (fun _ => True) (fun _ => True) fun f _ => f.Attended) := by
  intro begun _
  have hinterpret : Ensures (interpret world s.base s.contact s.statuses s.steps s.table left 0)
      (Comes world s begun 0)
      (Stepped (fun r => ∃ stop, Comes world s begun stop r) (fun _ => True)
        fun f _ => f.Attended) := by
    -- What carries the loop is the way by which the run has come to where it is.
    refine .interpret (fun index step id hsome hid r hcomes => ?_)
      (fun _ f _ _ => Failure.IsMet.attended (f := .fault f) trivial)
        (fun _ _ _ => attended_exceeded) left 0
    -- The step is an instruction of the program, and the run comes to it, so all it may fail with
    -- is attended to.
    obtain ⟨i, hi, rfl⟩ := Program.exists_getElem?_of_map (hsteps ▸ hsome)
    have hsame := hid
    rw [i.requiredField_id] at hsame
    cases hsame
    have hstepped := attended_execute hworld hsteps hplaces hlinked hi hcomes
    rcases hexecute : outcome (execute world s.base s.contact s.statuses i.toJson)
      (entering (.text i.id) r) with ⟨result, r'⟩
    rw [hexecute] at hstepped
    cases result with
    | error f => exact hstepped
    | ok ended =>
      cases ended with
      | true => exact trivial
      | false =>
        rw [Passed]
        dsimp only
        cases hnext : Walk.next i.toJson index s.table r'.vars with
        | error f => exact Failure.IsMet.attended trivial
        | ok following => exact hcomes.tail ⟨_, _, hsome, hid, hexecute, hnext⟩
  refine (hinterpret.mono (fun _ hs => hs) fun result r hr => ?_) begun .refl
  cases result with
  | error f => exact hr
  | ok ended => cases ended <;> exact trivial

end Runs

/-- Whatever a run is given besides a program, it never fails for want of a task. -/
theorem attended_run {world : World σ} (hworld : world.NamesTasks) {p : Program} {table : Table Nat}
    (htable : Walk.gotoTable (p.map Instruction.toJson) = .ok table) (hplaces : Places p table)
    (hlinked : p.LinkedFrom 0 p) {params : Fields}
    (hgiven : params.value "steps" = .list (p.map Instruction.toJson)) :
    (∀ s : Setup, s.Prepares params →
      Keeps (body world s) (fun _ => True) fun f _ => f.Attended) ∧
    Keeps (run world params) (fun _ => True) fun f _ => f.Attended := by
  have hlasting := lasting_attended world
  -- The loop runs over the steps that the run was given.
  have hinterpret : ∀ s : Setup, s.Prepares params →
      Ensures (interpret world s.base s.contact s.statuses s.steps s.table stepLimit 0)
        (fun _ => True)
        (Stepped (fun _ => True) (fun _ => True) fun f _ => f.Attended) := by
    intro s hprepares
    have hsteps := hprepares.steps
    rw [hgiven, Json.givenItemsOf_list, Except.ok.injEq] at hsteps
    have hsame := hprepares.table
    rw [← hsteps, htable, Except.ok.injEq] at hsame
    exact attended_interpret hworld hsteps.symm (hsame ▸ hplaces) hlinked stepLimit
  -- Around the loop nothing fails in another way.
  have hbody : ∀ s : Setup, s.Prepares params →
      Keeps (body world s) (fun _ => True) fun f _ => f.Attended := fun s hprepares =>
    hlasting.body (fun _ _ _ _ _ => trivial) (hinterpret s hprepares)
  refine ⟨hbody, ?_⟩
  have hrun : Keeps (run world params) (fun _ => True) fun f _ => f.Attended ∧ True := by
    refine (hlasting.mono fun _ _ h => ⟨h, trivial⟩).run (fun _ _ hs => hs)
      (fun _ _ _ _ _ _ _ => trivial) fun s hprepares => ?_
    exact (hinterpret s hprepares).mono (fun _ hs => hs) fun _ _ h =>
      h.mono fun _ _ h => ⟨h, trivial⟩
  exact hrun.mono (fun _ hs => hs) fun _ _ h => h.mono fun _ _ h => h.1

end Run

-- ============================================================================
-- Runs of definitions
-- ============================================================================

namespace Definition

open Run

/-- A wait always has its task. Each wait of a compiled program is for the task of an instruction
before it that comes from the same step, and every walk that reaches the wait has been there. A run
that comes to the wait, in a world that names its tasks, has created the task there, and this is the
task that it waits for; no run fails for want of a task. -/
theorem awaits_created {d : Definition} {p : Program} (h : d.compile = .ok p) :
    ∃ table, Walk.gotoTable (p.map Instruction.toJson) = .ok table ∧
      (∀ (j : Nat) (i : Instruction) (creator : String) (days : Nat), p[j]? = some i →
        i.operation = .awaitTask creator days →
        ∃ m start size, p.Awaited m j creator ∧ d.Lowers p start size ∧ start ≤ m ∧
          j < start + size ∧
          (∀ before : List Nat, (before ++ [j]).head? = some 0 →
            (before ++ [j]).IsChain (Walk.Follows (p.map Instruction.toJson) table) → m ∈ before) ∧
          ∀ {σ : Type} (world : World σ), world.NamesTasks → ∀ s : Setup,
            s.steps = p.map Instruction.toJson → s.table = table → ∀ begun r,
              Comes world s begun j r →
              ∃ task, task ≠ "" ∧ HasCreated world s begun m creator task (j, r) ∧
                Awaits world s i creator task r) ∧
      ∀ {σ : Type} (world : World σ), world.NamesTasks → ∀ params : Fields,
        params.value "steps" = .list (p.map Instruction.toJson) →
        (∀ s : Setup, s.Prepares params →
          Keeps (body world s) (fun _ => True) fun f _ => f.Attended) ∧
        Keeps (run world params) (fun _ => True) fun f _ => f.Attended := by
  obtain ⟨table, htable, hplaces, hlinked⟩ := exists_linked h
  refine ⟨table, htable, fun j i creator days hi hwait => ?_, fun world hworld params hgiven => ?_⟩
  · obtain ⟨m, start, size, hawaited, hlowers, hstart, hend⟩ := exists_awaited h hi hwait
    refine ⟨m, start, size, hawaited, hlowers, hstart, hend, fun before hfirst hwalk => ?_, ?_⟩
    · exact hawaited.mem_of_walk hlinked hplaces hawaited.before (Nat.le_refl j) hfirst hwalk
    · rintro σ world hworld s hsteps rfl begun r hcomes
      exact awaits_of_comes hworld hsteps hplaces hlinked hawaited hwait hcomes
  · exact attended_run hworld htable hplaces hlinked hgiven

/-- A definition whose only step asks for a task and waits for it. -/
def asking : Definition where
  id := "asking"
  name := "Asking"
  description := none
  trigger := ⟨.manual, none⟩
  contactRequired := false
  statuses := [⟨"open", "Open", .whole 1, none⟩]
  vars := []
  phases := []
  steps := [.standard ⟨"ask", "Ask", none⟩
    [⟨"call", "create_task",
      ⟨[("assignTo", .obj [("type", .text "role"), ("role", .text "agent")])]⟩⟩]
    ⟨"when_task_completed", ⟨[("taskActionId", .text "call")]⟩⟩]

/-- The program of `asking`. -/
def asked : Program := [
  ⟨"trigger_start", "Trigger", none, .start ⟨.manual, none⟩ false⟩,
  ⟨"call", "Ask: Create Task", none, .work <| .createTask {
    title := ""
    links := []
    kind := .standard
    assignTo := ⟨[("type", .text "role"), ("role", .text "agent")]⟩
    priority := .text "medium"
    requireComment := false
    description := none
    dueDays := none }⟩,
  ⟨"ask_wait_task", "Ask: Wait for Task", none, .awaitTask "call" 7⟩,
  ⟨"workflow_end", "Workflow End", none, .mark⟩]

/-- A run of it, set up. -/
def askedSetup : Setup where
  base := ⟨.text "execution", .text "org"⟩
  contact := .null
  statuses := .texts ["open"]
  steps := asked.map Instruction.toJson
  table := Walk.places [] 0 asked

theorem compile_asking : asking.compile = .ok asked := by
  with_unfolding_all exact rfl

theorem comes_asked : ∃ r, Comes silent askedSetup (.fresh ()) 2 r := by
  obtain ⟨started, created, hstart, hcreate⟩ : ∃ started created,
      Goes silent askedSetup (0, .fresh ()) (1, started) ∧
        Goes silent askedSetup (1, started) (2, created) :=
    ⟨_, _, ⟨_, _, rfl, rfl, rfl, rfl⟩, _, _, rfl, rfl, rfl, rfl⟩
  exact ⟨created, .tail (.single hstart) hcreate⟩

theorem namesTasks_silent : silent.NamesTasks := by
  intro params outside answer h
  cases h
  exact ⟨"task", by decide, rfl⟩

/-- A run comes to the wait, for the task that it has created. -/
theorem awaits_created_asking :
    asking.compile = .ok asked ∧ ∃ m task r, asked.Awaited m 2 "call" ∧
      Comes silent askedSetup (.fresh ()) 2 r ∧
      HasCreated silent askedSetup (.fresh ()) m "call" task (2, r) ∧
      Awaits silent askedSetup ⟨"ask_wait_task", "Ask: Wait for Task", none,
        .awaitTask "call" 7⟩ "call"
        task r := by
  obtain ⟨table, htable, hwaits, -⟩ := awaits_created compile_asking
  rw [Walk.gotoTable_toJson, Except.ok.injEq] at htable
  obtain ⟨m, -, -, hawaited, -, -, -, -, hruns⟩ := hwaits 2 _ "call" 7 rfl rfl
  obtain ⟨r, hcomes⟩ := comes_asked
  obtain ⟨task, -, hcreated, hawaits⟩ :=
    hruns silent namesTasks_silent askedSetup rfl htable _ r hcomes
  exact ⟨compile_asking, m, task, r, hawaited, hcomes, hcreated, hawaits⟩

end Definition
end Casework
