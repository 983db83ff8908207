/-
  Casework.Proofs.Task.Provenance

  Where the tasks of a run come from. An attempt has the engine run a program, the run calls for a
  task, and the call is carried out: then the store has a row for the task that names the
  instruction and the execution. The execution keeps the program, and it is the one that the
  definition compiles to. Whatever is done afterwards, the row stays the only one with its id, and
  so does that of the execution; what they say of each other stays as it is.
-/
import Casework.Proofs.Execution.Snapshot
import Casework.Proofs.Run.Calls

namespace Casework

open Store Result

/-- The fields of an object are those that it gives. -/
theorem Json.givenFields_object (fields : Fields) (operation : String) :
    (Json.object fields).givenFields operation = .ok fields := by
  obtain ⟨fields⟩ := fields
  cases fields <;> rfl

-- ============================================================================
-- New rows
-- ============================================================================

namespace Activities

/-- A task is in the place that the parameters of its creation name. -/
structure Places (params : Fields) (t : Task) : Prop where
  org : Column.text (params.value "org_id") = .ok (some t.org)
  execution : Column.text (params.value "workflow_execution_id") = .ok t.execution
  creator : Column.text (params.value "step_id") = .ok t.creator

/-- A task is new, and is what a configuration describes. -/
structure Describes (config : Fields) (t : Task) : Prop where
  title : Column.text ((config.value "title").orElse (.text "Untitled task")) = .ok (some t.title)
  kind : ∃ kind, Column.text ((config.value "taskType").orElse (.text Task.standard)) = .ok kind ∧
    t.kind = kind.getD Task.standard
  priority : ∃ priority,
    Column.text ((config.value "priority").orElse (.text Task.medium)) = .ok priority ∧
      t.priority = priority.getD Task.medium
  status : t.status = Task.todo

/-- Creating a task adds one row, which has an id that no other one has. -/
structure Adds (s s' : Session) (t : Task) : Prop where
  tasks : s'.working.tasks = s.working.tasks ++ [t]
  fresh : ∀ other ∈ s.working.tasks, other.id ≠ t.id
  executions : s'.working.executions = s.working.executions

/-- A task created is the draft under some id, and the only change to the rows. -/
theorem adds_of_result {org : Json} {d : TaskDraft} {s s' : Session} {t : Task}
    (h : result (Store.createTask org d) s = (.ok t, s')) :
    (∃ id, d.Yields id org t) ∧ Adds s s' t := by
  obtain ⟨id, moment, r, -, htask, rfl, hnew, hworking⟩ := added_of_result h
  have hfresh := Record.ne_of_any_clash (fun _ _ => beq_iff_eq.2) hnew
  exact ⟨⟨id, TaskDraft.yields_of_task htask⟩, congrArg Records.tasks hworking, hfresh,
    (congrArg Records.executions hworking :)⟩

/-- Whoever is given a task is told so, which leaves the rows as they are. -/
theorem told_of_result {org user answer answer' : Json} {task title : String} {s s' : Session}
    (h : result (if user.truthy then do tellAssigned org user task title none; pure answer
      else pure answer) s = (.ok answer', s')) :
    answer' = answer ∧
      (s'.working.tasks, s'.working.executions) = (s.working.tasks, s.working.executions) := by
  split at h
  · obtain ⟨_, told, htell, hdone⟩ := result_bind_eq_ok_iff.1 h
    cases hdone
    have hmoves : Moves (.keeping fun records => (records.tasks, records.executions))
        (tellAssigned org user task title none) := moves_tellAssigned (fun _ _ _ => rfl) _ _ _ _
    have hstep := hmoves s
    rw [htell] at hstep
    exact ⟨rfl, hstep.working⟩
  · cases h
    exact ⟨rfl, rfl⟩

/-- A task that was created is what its parameters ask for, and the answer tells its id. -/
theorem created_of_result {params : Fields} {s s' : Session} {answer : Json}
    (h : result (createTask params) s = (.ok answer, s')) :
    ∃ config t, (params.value "config").givenFields "get" = .ok config ∧ Places params t ∧
      Describes config t ∧ Adds s s' t ∧ answer = .obj [("taskId", .text t.id)] := by
  -- The steps of the activity, in order: its config, the assignment, the due date and the org.
  obtain ⟨config, _, hread, hassign⟩ := result_bind_eq_ok_iff.1 h
  obtain ⟨hconfig, rfl⟩ := result_liftFault_eq_ok_iff.1 hread
  obtain ⟨assignment, begun, hassigned, hdate⟩ := result_bind_eq_ok_iff.1 hassign
  obtain ⟨-, rfl⟩ := result_liftFault_eq_ok_iff.1 hassigned
  obtain ⟨due, dated, hdue, hplace⟩ := result_bind_eq_ok_iff.1 hdate
  obtain ⟨org, named, hname, hput⟩ := result_bind_eq_ok_iff.1 hplace
  obtain ⟨horg, rfl⟩ := result_liftFault_eq_ok_iff.1 hname
  obtain ⟨t, created, hcreate, htell⟩ := result_bind_eq_ok_iff.1 hput
  obtain ⟨⟨id, hyields⟩, hadds⟩ := adds_of_result hcreate
  -- Reckoning the due date reads the clock and leaves the rows alone.
  have hdated : named.working = begun.working := by
    have hmoves := Task.moves_dueAfter (R := .keeping fun records => records)
      (config.value "dueDays") begun
    rw [hdue] at hmoves
    exact hmoves.working
  obtain ⟨hanswer, hrows⟩ := told_of_result htell
  obtain ⟨htasks, hexecutions⟩ := Prod.mk.inj hrows
  rw [← Json.value_of_requiredField horg] at hyields
  -- The column of the status has a default of its own, which the draft leaves in place.
  have hunstarted : t.status = Task.todo := by
    obtain ⟨status, hcolumn, hstatus⟩ := hyields.status
    cases hcolumn
    exact hstatus
  refine ⟨config, t, hconfig, ⟨hyields.org, hyields.execution, hyields.creator⟩,
    ⟨hyields.title, hyields.kind, hyields.priority, hunstarted⟩, ⟨?_, ?_, ?_⟩, hanswer⟩
  · rw [htasks, hadds.tasks, hdated]
  · rw [← hdated]
    exact hadds.fresh
  · rw [hexecutions, hadds.executions, hdated]

end Activities

-- ============================================================================
-- Rows of a run
-- ============================================================================

/-- An execution of an organization holds a program, and no other one has its id. -/
structure Execution.Holds (records : Records) (org : String) (p : Program) (e : Execution) :
    Prop where
  only : Record.Only records.executions e
  id : e.id ≠ ""
  org : e.org = org
  steps : e.steps = p.toJson

/-- A task stems from an instruction of a program: it names the instruction and an execution that
holds the program, and no other task has its id. -/
structure Task.Stems (records : Records) (p : Program) (i : Instruction) (t : Task) : Prop where
  only : Record.Only records.tasks t
  creator : t.creator = some i.id
  execution : ∃ e : Execution, t.execution = some e.id ∧ e.Holds records t.org p

section Later

variable {records records' : Records} (hrows : keepingRows.rel records records') {p : Program}

include hrows

theorem Execution.Holds.later {org : String} {e : Execution} (h : e.Holds records org p) :
    ∃ e' : Execution, e'.Holds records' org p ∧ e'.id = e.id := by
  obtain ⟨e', honly, hid, horg, hsteps⟩ := hrows.2 e h.only
  exact ⟨e', ⟨honly, hid ▸ h.id, horg.trans h.org, hsteps.trans h.steps⟩, hid⟩

/-- Whatever becomes of a task, it stems from its instruction. -/
theorem Task.Stems.later {i : Instruction} {t : Task} (h : t.Stems records p i) :
    ∃ t' : Task, t'.Stems records' p i ∧ t'.id = t.id ∧ t'.org = t.org ∧ t.Becomes t' := by
  obtain ⟨t', honly, hid, horg, hbecomes⟩ := hrows.1 t h.only
  obtain ⟨e, hexecution, hholds⟩ := h.execution
  obtain ⟨e', hholds', hsame⟩ := hholds.later hrows
  refine ⟨t', ⟨honly, hbecomes.creator.trans h.creator, e', ?_, horg ▸ hholds'⟩, hid,
    horg, hbecomes⟩
  rw [hbecomes.execution, hexecution, hsame]

end Later

-- ============================================================================
-- Runs of definitions
-- ============================================================================

namespace Trigger

/-- An attempt that has a run started keeps an execution, and gives its parameters to the run. -/
theorem Attempt.kept_of_sent {a : Attempt} {s : Session} {given : Fields} {workflow : String}
    (hsent : (a.make s).2.engine.sent = s.engine.sent ++ [.start (.object given) workflow]) :
    ∃ (k : Kept) (kept : Session), a.Keeps s k kept ∧
      (a.make s).2.committed.executions = s.committed.executions ++
      [named k.execution kept.now.bare] ∧
      Trigger.given k.runnable k.execution k.contact = given := by
  rcases make_cases a s with ⟨f, -, -, -, hengine⟩ | ⟨k, kept, hkeeps⟩
  · rw [hengine] at hsent
    simp [Attempt.session] at hsent
  · refine ⟨k, kept, hkeeps, ?_⟩
    rcases hkeeps.outcome with ⟨error, -, -, -, hnone⟩ | ⟨shown, -, -, hexecutions, hcall⟩
    · rw [hnone] at hsent
      simp at hsent
    · rw [hcall] at hsent
      have hsame := List.append_cancel_left hsent
      simp only [Kept.params, params_eq, List.cons.injEq, EngineCall.start.injEq] at hsame
      exact ⟨hexecutions, Json.object.inj hsame.1.1⟩

/-- An attempt has the engine run the program of a definition, with these parameters. -/
structure Attempt.Runs (a : Attempt) (s : Session) (d : Definition) (p : Program) (given : Fields) :
    Prop where
  read : ∃ r, s.committed.definitions.find? (Record.isOf a.definition a.actor.org) = some r ∧
    Definition.ofJson r.authored = .ok d
  compiled : d.compile = .ok p
  sent : ∃ workflow, (a.make s).2.engine.sent = s.engine.sent ++ [.start (.object given) workflow]

/-- The run is about an execution that holds the program. -/
theorem Attempt.Runs.execution {a : Attempt} {s : Session} {d : Definition} {p : Program}
    {given : Fields}
    (h : a.Runs s d p given) :
    ∃ e : Execution, e.Holds (a.make s).2.working a.actor.org p ∧
      Run.Base.given given = ⟨.text e.id, .text a.actor.org⟩ ∧
      (given.value "steps").givenItemsOf = .ok (p.map Instruction.toJson) := by
  obtain ⟨r, hfound, hread⟩ := h.read
  obtain ⟨workflow, hsent⟩ := h.sent
  obtain ⟨k, kept, ⟨hkeep, hfollows, -⟩, hexecutions, rfl⟩ := Attempt.kept_of_sent hsent
  have hbegun := begun_of_keep hkeep
  have hrunnable : k.runnable = ⟨r, d, p⟩ :=
    runnable_eq_of_keep (result_prepare (s := a.session s) hfound hread h.compiled) hkeep
  have hsettled : (a.make s).2.Settled := settled_transact _ _
  refine ⟨named k.execution kept.now.bare, ⟨?_, hbegun.id, hfollows.org, ?_⟩, ?_, ?_⟩
  · rw [hsettled, hexecutions]
    exact .append hfollows.fresh
  · exact hbegun.steps.trans (by rw [hrunnable])
  · rw [← hfollows.org]
    rfl
  · rw [steps_given, hrunnable]

end Trigger

-- ============================================================================
-- Tasks of runs
-- ============================================================================

/-- A run has had a task created. An attempt has the engine run the program of a definition; the
run, in some world and whatever has come in before it, calls for the task; and some time later the
call is carried out. -/
inductive Task.Arises (a : Trigger.Attempt) (s : Session) (d : Definition) (p : Program) :
    String → Session → Prop where
  | called {given call : Fields} {σ : Type} {world : World σ} {begun : RunState σ}
    {failure : Option Failure} {deeds : List Deed} {id : String} {created : Session}
    (hruns : a.Runs s d p given) (hbegun : begun.calls = [])
    (hcall : (⟨.createTask, call⟩, failure) ∈ (Run.outcome (Run.run world given) begun).2.calls)
    (hcreated : transact (Activities.perform .createTask call)
      (Deed.performAll (a.make s).2 deeds) =
      (.ok (.obj [("taskId", .text id)]), created)) :
    Arises a s d p id created

namespace Task

variable {a : Trigger.Attempt} {s created : Session} {d : Definition} {p : Program} {id : String}

theorem Arises.compiled (h : Arises a s d p id created) : d.compile = .ok p := by
  cases h with
  | called hruns => exact hruns.compiled

theorem Arises.settled (h : Arises a s d p id created) : created.Settled := by
  cases h with
  | @called _ call _ _ _ _ deeds _ _ _ _ _ hcreated =>
    have hsettled := settled_transact (Activities.perform .createTask call)
      (Deed.performAll (a.make s).2 deeds)
    rw [hcreated] at hsettled
    exact hsettled

/-- A call that asks for the task of an instruction, on behalf of an execution that holds the
program, has the task created that stems from the instruction. -/
theorem stems_of_created {i : Instruction} {e : Execution} {org : String} {plan : TaskPlan}
    {rendered call : Fields} {s s' : Session}
    (hasks : i.Asks ⟨.text e.id, .text org⟩ plan rendered call) (hholds : e.Holds s.working org p)
    (hcreated : result (Activities.perform .createTask call) s =
      (.ok (.obj [("taskId", .text id)]), s')) :
    ∃ t : Task, t.Stems s'.working p i ∧ Activities.Describes rendered t ∧ t.id = id ∧
      t.org = org := by
  obtain ⟨config, t, hconfig, ⟨hplaced, hexecution, hcreator⟩, hdescribes, hadds, hanswer⟩ :=
    Activities.created_of_result hcreated
  rw [hasks.org] at hplaced
  rw [hasks.execution] at hexecution
  rw [hasks.step] at hcreator
  rw [hasks.config, Json.givenFields_object] at hconfig
  cases hconfig
  -- The answer carries the id of the new row, and nothing else does.
  have hid : id = t.id := Json.text.inj (congrArg (Json.field · "taskId") hanswer)
  have horg : org = t.org := Option.some.inj (Except.ok.inj hplaced)
  refine ⟨t, ⟨?_, (Except.ok.inj hcreator).symm, e, (Except.ok.inj hexecution).symm, ?_⟩,
    hdescribes,
    hid.symm, horg.symm⟩
  · rw [hadds.tasks]
    exact .append hadds.fresh
  · rw [← horg]
    exact ⟨hadds.executions ▸ hholds.only, hholds.id, hholds.org, hholds.steps⟩

/-- Whatever is done after a task was created, it stems from an instruction that describes it. -/
theorem Arises.stems (h : Arises a s d p id created) (deeds : List Deed) :
    ∃ i ∈ p, ∃ (plan : TaskPlan) (rendered : Fields) (new t : Task),
      i.operation = .work (.createTask plan) ∧ Run.Renders plan.config rendered ∧
      Activities.Describes rendered new ∧ new.Becomes t ∧
      t.Stems (Deed.performAll created deeds).working p i ∧ t.id = id ∧ t.org = a.actor.org := by
  cases h with
  | @called given call σ world begun failure before _ _ hruns hbegun hcall hcreated =>
    obtain ⟨e, hholds, hgiven, hsteps⟩ := hruns.execution
    obtain ⟨i, hi, plan, rendered, hasks⟩ := Run.asks_of_called hsteps world hbegun hcall
    -- Deeds between the start and the call keep the run, with the program it was given.
    obtain ⟨e', hholds', hsame⟩ :=
      hholds.later (Deed.keepingRows_performAll (settled_transact _ _) before)
    rw [hgiven, ← hsame] at hasks
    rw [transact_eq] at hcreated
    rcases hresult : result (Activities.perform .createTask call)
      (Deed.performAll (a.make s).2 before)
      with ⟨answer | f, s'⟩ <;> rw [hresult] at hcreated <;> cases hcreated
    obtain ⟨new, hstems, hdescribes, hid, horg⟩ := stems_of_created hasks hholds' hresult
    -- Deeds after the call keep the task that stems from the instruction.
    obtain ⟨t, hstems', hid', horg', hbecomes⟩ :=
      hstems.later (Deed.keepingRows_performAll
        (s := { s' with committed := s'.working }) rfl deeds)
    exact ⟨i, hi, plan, rendered, new, t, hasks.creates, hasks.renders, hdescribes,
      hbecomes, hstems',
      hid'.trans hid, horg'.trans horg⟩

/-- A task was written by an action of a definition. The action has become an instruction with a
plan of the task; the task names the instruction, and was created as its plan is rendered. -/
structure WrittenBy (t : Task) (d : Definition) (p : Program) (action : Action) (i : Instruction)
    (plan : TaskPlan) : Prop where
  authors : d.Authors p action i
  kind : action.kind = "create_task"
  describes : Plan.Describes (Template.keysOf d.vars) action.config plan
  creates : i.operation = .work (.createTask plan)
  creator : t.creator = some i.id
  described : ∃ (rendered : Fields) (new : Task), Run.Renders plan.config rendered ∧
    Activities.Describes rendered new ∧ new.Becomes t

/-- Whatever is done after a task was created, it is found, and was written by an action. -/
theorem Arises.written (h : Arises a s d p id created) (deeds : List Deed) :
    ∃ (t : Task) (action : Action) (i : Instruction) (plan : TaskPlan),
      (Deed.performAll created deeds).task? id a.actor.org = some t ∧
        t.WrittenBy d p action i plan ∧
      t.Stems (Deed.performAll created deeds).working p i ∧ t.org = a.actor.org := by
  obtain ⟨i, hi, plan, rendered, new, t, hcreates, hrenders, hdescribes, hbecomes,
      hstems, hid, horg⟩ :=
    h.stems deeds
  obtain ⟨action, hauthors, hkind, hplan⟩ := Definition.exists_author h.compiled hi hcreates
  refine ⟨t, action, i, plan, ?_, ?_, hstems, horg⟩
  · rw [← hid, ← horg]
    exact hstems.only.find?
  · exact ⟨hauthors, hkind, hplan, hcreates, hstems.creator, rendered, new, hrenders,
      hdescribes, hbecomes⟩

/-- A definition whose only action has an approval created, with a blank title and a priority that
is none. -/
def asking : Fields := ⟨[
  ("id", .text "case"), ("contactRequired", .bool false),
  ("statuses", .list [.obj [("id", .text "open"), ("label", .text "Open"), ("order", .int 1)]]),
  ("steps", .list [.obj [
    ("id", .text "s1"), ("name", .text "First"),
    ("actions", .list [.obj [("id", .text "ask"), ("type", .text "create_task"),
      ("config", .obj [("title", .text " "), ("taskType", .text approval),
        ("assignTo", .obj [("type", .text "user"), ("userId", .text "bob")]),
        ("priority", .text "urgent"), ("requireComment", .int 1)])]]),
    ("advancementCondition", .obj [("type", .text "automatic")])]])]⟩

open Trigger in
set_option maxRecDepth 4000 in
/-- It is stored and triggered, and its run has the approval created. -/
theorem exists_arises_asking :
    ∃ d p created t, Arises (attemptWith {}) (storing asking) d p "task-1" created ∧
      d.actions.all (fun action => (action.config.value "requireComment").truthy) ∧
      created.task? "task-1" "org" = some t ∧
        (t.isApproval ∧ t.isDone = false ∧ t.assignee = some "bob") ∧
      t.priority = "urgent" ∧ t.title = " " := by
  obtain ⟨d, p, given, call, failure, created, t, hruns, hcall, hcreated, hrest⟩ :
      ∃ d p given call failure created t, (attemptWith {}).Runs (storing asking) d p given ∧
        (⟨.createTask, call⟩, failure) ∈
          (Run.outcome (Run.run Run.silent given) (.fresh ())).2.calls ∧
        transact (Activities.perform .createTask call)
            (Deed.performAll ((attemptWith {}).make (storing asking)).2 []) =
          (.ok (.obj [("taskId", .text "task-1")]), created) ∧
        d.actions.all (fun action => (action.config.value "requireComment").truthy) ∧
        created.task? "task-1" "org" = some t ∧
        (t.isApproval ∧ t.isDone = false ∧ t.assignee = some "bob") ∧
        t.priority = "urgent" ∧ t.title = " " := by
    refine ⟨?d, ?p, ?given, ?call, ?failure, ?created, ?t,
      ⟨⟨?r, ?found, ?read⟩, ?compiled, ?workflow, ?sent⟩, ?called, ?done, ?asks, ?row,
        ?pending, ?odd⟩
    case found => with_unfolding_all exact rfl
    case read => with_unfolding_all exact rfl
    case compiled => with_unfolding_all exact rfl
    case sent => with_unfolding_all exact rfl
    case called => with_unfolding_all exact .head _
    case done => with_unfolding_all exact rfl
    case asks => with_unfolding_all exact rfl
    case row => with_unfolding_all exact rfl
    case pending => with_unfolding_all exact ⟨rfl, rfl, rfl⟩
    case odd => with_unfolding_all exact ⟨rfl, rfl⟩
  exact ⟨d, p, created, t, .called hruns rfl hcall hcreated, hrest⟩

end Task
end Casework
