/-
  Casework.Proofs.Execution.Status

  The status of an execution, from its trigger to the end of its run. It begins with the initial
  status of its definition. Afterwards it is written by reports only: one that marks the execution
  as failed because it could not be started, and those of its run. Each of them names a status that
  the definition declares, or none, so the status is a declared one at every moment.

  The world of a run is taken to be the store with whatever else works on it. It keeps the sessions
  that were seen, the newest first; how its work answers is left open, so that a report can be
  carried out although the run is told that it failed.
-/
import Casework.Proofs.Definition.Statuses
import Casework.Proofs.Program.Origin
import Casework.Proofs.Run.Setup
import Casework.Proofs.Run.Status
import Casework.Proofs.Task.Creation

namespace Casework

open Store Result

-- ============================================================================
-- Declared statuses
-- ============================================================================

/-- The status of the execution with an id in an organization. -/
def Records.status? (r : Records) (id org : String) : Option String :=
  (r.executions.find? (Record.isOf id org)).map Execution.status

/-- There is such an execution, and its status is one of some. -/
def Records.Declares (r : Records) (id org : String) (statuses : List String) : Prop :=
  ∃ status ∈ statuses, r.status? id org = some status

/-- What is committed and what the session sees have the execution with one of some statuses. -/
structure Session.Declares (s : Session) (id org : String) (statuses : List String) : Prop where
  working : s.working.Declares id org statuses
  committed : s.committed.Declares id org statuses

section Reports

variable {id org : String} {statuses : List String}

/-- Records move on in such a way that the status stays a declared one. -/
def declaring (id org : String) (statuses : List String) : Progress where
  rel r r' := r.Declares id org statuses → r'.Declares id org statuses
  refl _ h := h
  trans h h' hr := h' (h hr)

/-- The status of an execution is one of the executions alone. -/
theorem Records.status?_congr {r r' : Records} (h : r'.executions = r.executions) :
    r'.status? id org = r.status? id org := by
  rw [status?, status?, h]

theorem Record.isOf_execution {e : Execution} :
    Record.isOf id org e = true ↔ e.id = id ∧ e.org = org := by
  show (e.id == id && e.org == org) = true ↔ _
  rw [Bool.and_eq_true, beq_iff_eq, beq_iff_eq]

/-- A change that leaves every execution what it is changes at most statuses. -/
theorem Records.status?_map (r : Records) {f : Execution → Execution}
    (hf : ∀ e, (f e).id = e.id ∧ (f e).org = e.org) :
    (Record.replace (r.executions.map f) r).status? id org =
      (r.executions.find? (Record.isOf id org)).map fun e => (f e).status := by
  have hsame : Record.isOf id org ∘ f = Record.isOf id org := by
    funext e
    rw [Function.comp_apply, Bool.eq_iff_iff, Record.isOf_execution, Record.isOf_execution,
      (hf e).1, (hf e).2]
  show (List.find? _ (r.executions.map f)).map _ = _
  rw [List.find?_map, hsame, Option.map_map]
  rfl

/-- A report that fits leaves the status of every execution a declared one. -/
theorem moves_fitting (eid eorg : Json) (report : Execution.Report)
    (hfits : ∀ status, Column.text report.status = .ok (some status) → status ∈ statuses) :
    Moves (declaring id org statuses) (reportExecution eid eorg report) := by
  refine moves_reportExecution _ _ _ fun records moment e e' _ hfound happly hdeclares => ?_
  obtain ⟨hid, horg, status, hcolumn, hstatus⟩ := Execution.Report.fields_of_apply happly
  obtain ⟨kept, hkept, hbefore⟩ := hdeclares
  obtain ⟨x, hx, rfl⟩ := Option.map_eq_some_iff.1 hbefore
  have hf : ∀ y : Execution, (if Record.isOf e'.id e'.org y then e' else y).id = y.id ∧
      (if Record.isOf e'.id e'.org y then e' else y).org = y.org := by
    intro y
    split
    case isTrue hy =>
      exact ⟨(Record.isOf_execution.1 hy).1.symm, (Record.isOf_execution.1 hy).2.symm⟩
    case isFalse => exact ⟨rfl, rfl⟩
  rw [Records.Declares, Records.status?_map _ hf, hx, Option.map_some, hid, horg]
  split
  case isFalse => exact ⟨_, hkept, rfl⟩
  case isTrue hof =>
    -- The row that is replaced is the one that the status is read from.
    obtain ⟨hxid, hxorg⟩ := Record.isOf_execution.1 hof
    have hxof := Record.isOf_execution.1 (List.find?_some hx)
    have hsame : e = x := by
      rw [← hxid, ← hxorg, hxof.1, hxof.2, hx] at hfound
      exact (Option.some.inj hfound).symm
    subst hsame
    refine ⟨e'.status, ?_, rfl⟩
    rw [hstatus]
    cases status with
    | none => exact hkept
    | some status => exact hfits status hcolumn

-- ============================================================================
-- Work
-- ============================================================================

/-- Work other than a report leaves executions as they are. -/
theorem moves_work {activity : Activity} (h : activity ≠ .setState) (params : Fields) :
    Moves (.keeping Records.executions) (Activities.perform activity params) := by
  have hrequired : ∀ name, Moves (.keeping Records.executions) (Activities.required params name) :=
    fun name => .liftFault _
  cases activity with
  | setState => exact absurd rfl h
  | createTask => exact (Task.moves_activity params).mono fun hrel => hrel.1
  | sendMail =>
    refine .bind (.liftFault _) fun recipient => .ite (.throw_bind _ _) ?_
    refine .bind (.liftFault _) fun sender => .ite ?_ (.pure _)
    exact .bind (hrequired _) fun _ => .bind (moves_sendersOf _) fun _ =>
      .ite (.throw_bind _ _) (.pure _)
  | notify =>
    exact .bind (hrequired _) fun _ => .bind (moves_tellRecipients (fun _ _ _ => rfl) _ _ _ _)
      fun _ => .pure _

/-- What a run asks for leaves the status a declared one, if its reports fit. -/
theorem moves_call {call : Call}
    (hfits : call.activity = .setState → Run.Fits statuses call.params) :
    Moves (declaring id org statuses) (Activities.perform call.activity call.params) := by
  obtain ⟨activity, params⟩ := call
  by_cases hactivity : activity = .setState
  · subst hactivity
    refine .bind (.liftFault _) fun eid => .bind (.liftFault _) fun eorg =>
      .bind (moves_fitting eid eorg _ (hfits rfl)) fun found => ?_
    cases found with
    | none => exact .throw _
    | some e => exact .pure _
  · refine (moves_work hactivity params).mono fun {r r'} hkept hdeclares => ?_
    rwa [Records.Declares, Records.status?_congr hkept]

end Reports

namespace Session.Declares

variable {id org : String} {statuses : List String} {s s' : Session}

/-- A step that declares what it changes keeps all statuses declared. -/
theorem of_step (h : s.Declares id org statuses) (hstep : (declaring id org statuses).Step s s') :
    s'.Declares id org statuses :=
  ⟨hstep.working h.working, hstep.committed ▸ h.committed⟩

/-- Work in a session of its own is kept or dropped, and leaves the status a declared one. -/
theorem transact {α : Type} {act : Tx α} (h : s.Declares id org statuses)
    (hact : Moves (declaring id org statuses) act) :
    (Store.transact act s).2.Declares id org statuses := by
  have hstep := h.of_step (hact s)
  rw [transact_eq]
  rcases hresult : result act s with ⟨answer, s'⟩
  rw [hresult] at hstep
  cases answer with
  | ok a => exact ⟨hstep.working, hstep.working⟩
  | error f => exact ⟨hstep.committed, hstep.committed⟩

end Session.Declares

-- ============================================================================
-- The world of a run
-- ============================================================================

/-- What can happen to the store while a run goes on: the call that was made is carried out in a
session of its own, or something else happens that leaves the status of the execution as it is. -/
inductive Happens (id org : String) (call? : Option Call) (s : Session) : Session → Prop where
  | done {call : Call} (hcall : call? = some call) :
    Happens id org call? s (transact (Activities.perform call.activity call.params) s).2
  | other {s' : Session} (hworking : s'.working.status? id org = s.working.status? id org)
    (hcommitted : s'.committed.status? id org = s.committed.status? id org) :
    Happens id org call? s s'

/-- Things happen one after the other, and each time the session then is added to those that were
seen before. -/
inductive Unfolds (id org : String) (call? : Option Call) (past : List Session) :
    List Session → Prop where
  | rest : Unfolds id org call? past past
  | next {s s' : Session} {before : List Session} (h : Unfolds id org call? past (s :: before))
    (hnext : Happens id org call? s s') : Unfolds id org call? past (s' :: s :: before)

/-- The world works on the store. What is asked of it can be carried out never, once or several
times, whatever it answers; while messages come in nothing that the run asked for is carried out. -/
structure World.WorksOn {σ : Type} (world : World σ) (seen : σ → List Session) (id org : String) :
    Prop where
  perform : ∀ call outside,
    Unfolds id org (some call) (seen outside) (seen (world.perform call outside).2)
  deliver : ∀ outside, Unfolds id org none (seen outside) (seen (world.deliver outside).2)
  arrive : ∀ outside, Unfolds id org none (seen outside) (seen (world.arrive outside).2)

section World

variable {id org : String} {statuses : List String} {call? : Option Call}

/-- Whatever happens to the store, all statuses stay declared, if those that are set are. -/
theorem Happens.declares {s s' : Session} (h : Happens id org call? s s')
    (hfits : ∀ call ∈ call?, call.activity = .setState → Run.Fits statuses call.params)
    (hs : s.Declares id org statuses) : s'.Declares id org statuses := by
  cases h with
  | done hcall => exact hs.transact (moves_call (hfits _ hcall))
  | other hworking hcommitted =>
    constructor
    · rw [Records.Declares, hworking]
      exact hs.working
    · rw [Records.Declares, hcommitted]
      exact hs.committed

/-- However the store unfolds, all statuses stay declared, if those that are set are. -/
theorem Unfolds.declares {past now : List Session} (h : Unfolds id org call? past now)
    (hfits : ∀ call ∈ call?, call.activity = .setState → Run.Fits statuses call.params)
    (hpast : ∀ s ∈ past, s.Declares id org statuses) : ∀ s ∈ now, s.Declares id org statuses := by
  induction h with
  | rest => exact hpast
  | next _ hnext ih =>
    intro m hm
    rcases List.mem_cons.1 hm with rfl | hm
    · exact hnext.declares hfits (ih _ List.mem_cons_self)
    · exact ih m hm

/-- The status is declared in every session that was seen, as long as the reports fit. -/
theorem World.WorksOn.respects {σ : Type} {world : World σ} {seen : σ → List Session}
    (h : world.WorksOn seen id org) :
    world.Respects (Run.Fits statuses) fun outside =>
      ∀ s ∈ seen outside, s.Declares id org statuses where
  perform call outside hfits hseen := by
    apply (h.perform call outside).declares _ hseen
    intro other hother
    cases hother
    exact hfits
  deliver outside hseen := (h.deliver outside).declares (fun _ hnone => by cases hnone) hseen
  arrive outside hseen := (h.arrive outside).declares (fun _ hnone => by cases hnone) hseen

end World

-- ============================================================================
-- Triggers
-- ============================================================================

namespace Trigger

variable {definition : String} {actor : AccessContext} {contact : Option String} {k : Kept}
  {s s' : Session}

/-- The status that a kept execution has is the initial one, which is a declared one. -/
theorem Kept.Follows.begins (h : k.Follows definition actor s s') :
    k.runnable.definition.Begins k.execution.status ∧
      k.execution.status ∈ k.runnable.definition.statusIds := by
  rw [h.status]
  exact Definition.begins_initialStatus (Definition.initialStatus_ofJson h.prepared.read)
    (Definition.issues_of_compile h.prepared.compiled)

/-- A kept execution is found among the others. -/
theorem Kept.Follows.status? (h : k.Follows definition actor s s') :
    s'.working.status? k.execution.id actor.org = some k.execution.status := by
  have hnone : s.working.executions.find? (Record.isOf k.execution.id actor.org) = none := by
    rw [List.find?_eq_none]
    intro e he hof
    exact h.fresh e he (Record.isOf_execution.1 hof).1
  have hself : Record.isOf k.execution.id actor.org k.execution = true :=
    Record.isOf_execution.2 ⟨rfl, h.org⟩
  rw [Records.status?, h.working, List.find?_append, hnone, Option.none_or, List.find?_singleton,
    if_pos hself]
  rfl

/-- After an execution was kept, its status is a declared one, in both views. -/
theorem Kept.Follows.declares (h : k.Follows definition actor s s')
    (hcommitted : s'.committed.executions = s'.working.executions) :
    s'.Declares k.execution.id actor.org k.runnable.definition.statusIds := by
  have hworking : s'.working.Declares k.execution.id actor.org k.runnable.definition.statusIds :=
    ⟨_, h.begins.2, h.status?⟩
  refine ⟨hworking, ?_⟩
  rwa [Records.Declares, Records.status?_congr hcommitted]

/-- An execution that could not be started gets the status for failures if it is declared, else it
keeps its initial status. -/
theorem failedStatus_mem {d : Definition} (h : d.initialStatus ∈ d.statusIds) :
    failedStatus d ∈ d.statusIds := by
  rw [failedStatus]
  split
  case isTrue hdeclared => exact List.contains_iff_mem.1 hdeclared
  case isFalse => exact h

variable {id org : String} {statuses : List String}

/-- Putting a row right after a failed start sets the status for failures, which is declared. -/
theorem declares_compensate {d : Definition} (e : Execution) (error : String)
    (hfailed : failedStatus d ∈ statuses) (hs : s.Declares id org statuses) :
    (result (compensate d e error) s).2.Declares id org statuses := by
  have hreport : Moves (declaring id org statuses)
    (discard (reportExecution (.text e.id) (.text e.org) {
      status := .text (failedStatus d)
      state := .text RunPhase.error.word
      completed := true
      details := .obj [("triggerError", .text error)] })) := by
    refine .map _ (moves_fitting _ _ _ fun status hstatus => ?_)
    cases hstatus
    exact hfailed
  have hafter := hs.of_step (hreport s)
  rw [compensate, result_bind]
  rcases hresult : result (discard _) s with ⟨answer, s'⟩
  rw [hresult] at hafter
  -- The report is committed.
  cases answer with
  | ok _ => exact ⟨hafter.working, hafter.working⟩
  | error f => exact hafter

/-- Naming the run of an execution leaves every status as it is. -/
theorem status?_nameRun (eid eorg workflow : String) (run : Option String) (s : Session) :
    (result (nameRun eid eorg workflow run) s).2.working.status? id org =
      s.working.status? id org := by
  show (Record.replace (s.working.executions.map fun e => if Record.isOf eid eorg e then _ else e)
    s.working).status? id org = _
  rw [Records.status?_map]
  · rw [Records.status?]
    congr 1
    funext e
    split <;> rfl
  · intro e
    split <;> exact ⟨rfl, rfl⟩

/-- Whether the engine takes a run or not, the status stays a declared one. -/
theorem declares_start (actor : AccessContext) (k : Kept)
    (hfailed : failedStatus k.runnable.definition ∈ statuses) (hs : s.Declares id org statuses) :
    (result (start actor k) s).2.Declares id org statuses := by
  rcases start_cases actor k s with ⟨f, error, engine, -, hstart⟩ |
    ⟨e, s', hstart, -, hworking, hcommitted⟩
  · rw [hstart]
    exact declares_compensate k.execution error hfailed ⟨hs.working, hs.committed⟩
  · rw [hstart]
    have hnamed : s'.working.Declares id org statuses := by
      rw [hworking, Records.Declares, status?_nameRun]
      exact hs.working
    exact ⟨hnamed, hcommitted ▸ hnamed⟩

/-- The status of a kept execution is a declared one at every moment. It begins as the status that
the trigger of the definition names, or as one of least order. It is a declared one when the
execution has been kept, when its start has succeeded or failed, and in every session that is seen
while it runs, whatever messages come in, however long tasks take, and whatever work fails. -/
theorem status_declared {definition : String} {actor : AccessContext} {contact : Option String}
    {s kept : Session} {k : Kept} (hkeep : result (keep definition actor contact) s =
      (.ok k, kept)) :
    Prepared k.runnable ∧
      k.runnable.definition.Begins k.execution.status ∧
      kept.committed.status? k.execution.id actor.org = some k.execution.status ∧
      kept.Declares k.execution.id actor.org k.runnable.definition.statusIds ∧
      (result (trigger definition actor contact) s).2.Declares k.execution.id actor.org
        k.runnable.definition.statusIds ∧
      ∀ {σ : Type} (world : World σ) (seen : σ → List Session),
        world.WorksOn seen k.execution.id actor.org → ∀ begun : RunState σ,
        (∀ m ∈ seen begun.outside,
          m.Declares k.execution.id actor.org k.runnable.definition.statusIds) →
        ∀ m ∈ seen (Run.outcome (Run.run world (given k.runnable k.execution k.contact))
            begun).2.outside,
          m.Declares k.execution.id actor.org k.runnable.definition.statusIds := by
  rcases keep_cases definition actor contact s with
    ⟨f, s', hfails, -⟩ | ⟨k', s', hkept, hfollows, hcommitted, -⟩
  -- The execution is kept, so the other case is excluded.
  · rw [hfails] at hkeep
    cases hkeep
  · rw [hkept] at hkeep
    cases hkeep
    -- It begins with a declared status.
    obtain ⟨hbegins, hmem⟩ := hfollows.begins
    have hdeclares := hfollows.declares hcommitted
    refine ⟨hfollows.prepared, hbegins, ?_, hdeclares, ?_, ?_⟩
    · rw [Records.status?_congr hcommitted]
      exact hfollows.status?
    -- The start of the run names the row, or puts it right.
    · rw [trigger_eq, result_bind, hkept]
      exact declares_start actor k (failedStatus_mem (hfollows.status ▸ hmem)) hdeclares
    -- A run sets only statuses that its program has, and these are declared.
    · intro σ world seen hworld begun hbegun
      have hne : k.runnable.definition.statusIds ≠ [] := List.ne_nil_of_mem hmem
      exact Run.outside_run hne hworld.respects (steps_given ..) rfl
        (fun i hi status hset => Definition.declared_of_setStatus
          hfollows.prepared.compiled hi hset)
        hbegun

/-- The world that is nothing but the store: work is carried out once, and no message comes in. -/
def storeWorld : World (List Session) where
  perform call
    | [] => (.error .activity, [])
    | s :: before =>
      let (answer, s') := transact (Activities.perform call.activity call.params) s
      (answer, s' :: s :: before)
  deliver seen := ([], seen)

theorem worksOn_storeWorld (id org : String) : storeWorld.WorksOn (fun seen => seen) id org where
  perform call seen := by
    cases seen with
    | nil => exact .rest
    | cons s before => exact .next .rest (.done rfl)
  deliver _ := .rest
  arrive _ := .rest

theorem status_declared_storeWorld :
    ∃ k kept, result (keep "case" ann none) (storing (submitted (.obj []))) = (.ok k, kept) ∧
      kept.committed.status? k.execution.id "org" = some "open" ∧
      ∀ m ∈ (Run.outcome (Run.run storeWorld (given k.runnable k.execution k.contact))
        (.fresh [kept])).2.outside, m.Declares k.execution.id "org" ["open"] := by
  obtain ⟨k, kept, hkeep, hstatuses, hbegun⟩ : ∃ k kept,
      result (keep "case" ann none) (storing (submitted (.obj []))) = (.ok k, kept) ∧
        k.runnable.definition.statusIds = ["open"] ∧ k.execution.status = "open" := by
    refine ⟨?k, ?kept, ?keep, ?statuses, ?status⟩
    case keep => with_unfolding_all exact rfl
    case statuses => with_unfolding_all exact rfl
    case status => with_unfolding_all exact rfl
  obtain ⟨-, -, hstatus, hdeclares, -, hrun⟩ := status_declared hkeep
  rw [hstatuses] at hdeclares hrun
  refine ⟨k, kept, hkeep, hbegun ▸ hstatus, ?_⟩
  refine hrun storeWorld (fun seen => seen) (worksOn_storeWorld _ _) (.fresh [kept]) ?_
  intro m hm
  obtain rfl := List.mem_singleton.1 hm
  exact hdeclares

end Trigger
end Casework
