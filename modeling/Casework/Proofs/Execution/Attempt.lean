/-
  Casework.Proofs.Execution.Attempt

  What attempts to start executions leave behind. An attempt fails before anything is kept, and then
  nothing has changed; or it keeps one new execution, and then the engine decides. If the engine
  takes the run, the execution is running under the name of the run. If it does not, the execution
  is marked as failed before the attempt fails. In each case an execution that is running has been
  started, so this stays true whatever attempts are made one after the other, and whatever the
  engine does.
-/
import Casework.Proofs.Run.Setup

namespace Casework

open Store Result

-- ============================================================================
-- Failures
-- ============================================================================

/-- The failure is not that of a service outside. -/
def Failure.Inner (f : Failure) : Prop := ∀ message, f ≠ .integration message

namespace Store

variable {α β : Type}

/-- An act fails in certain ways only. -/
def FailsAs (fails : Failure → Prop) (act : Tx α) : Prop :=
  ∀ s f, (result act s).1 = .error f → fails f

namespace FailsAs

variable {fails : Failure → Prop} {act : Tx α}

/-- What always succeeds does not fail in any other way. -/
theorem of_ok (h : ∀ s, ∃ a, (result act s).1 = .ok a) : FailsAs fails act := by
  intro s f hf
  obtain ⟨a, ha⟩ := h s
  rw [ha] at hf
  cases hf

theorem throw {f : Failure} (h : fails f) : FailsAs fails (throw f : Tx α) := by
  intro s g hg
  cases hg
  exact h

theorem lift {x : Except Failure α} (h : ∀ f, x = .error f → fails f) : FailsAs fails (lift x) :=
  fun _ => h

/-- One act after another fails as the two do. -/
theorem bind {next : α → Tx β} (hact : FailsAs fails act) (hnext : ∀ a, FailsAs fails (next a)) :
    FailsAs fails (act >>= next) := by
  intro s f hf
  rw [result_bind] at hf
  have herror := hact s
  rcases hresult : result act s with ⟨r, s'⟩
  rw [hresult] at hf herror
  cases r with
  | ok a => exact hnext a s' f hf
  | error g =>
    cases hf
    exact herror _ rfl

/-- An act whose entries are held to the session fails as the act does, or because what was read
before has expired. -/
theorem holding (hact : FailsAs fails act) (hexpired : fails (.store .expired)) :
    FailsAs fails (holding act) := by
  intro s f hf
  rw [result_holding] at hf
  rcases hresult : result act s with ⟨g | a, s'⟩ <;> rw [hresult] at hf
  · cases hf
    exact hact s f (by rw [hresult])
  · replace hf : (if Missed s s' then .error (.store .expired) else .ok a) = Except.error f := hf
    split at hf <;> cases hf
    exact hexpired

end FailsAs
end Store

namespace Trigger

open Store.FailsAs in
/-- Before an execution is kept, nothing outside has failed. -/
theorem fails_keep (definition : String) (actor : AccessContext) (contact : Option String) :
    FailsAs Failure.Inner (keep definition actor contact) := by
  -- The definition cannot be found, read or compiled: none of this is outside.
  have hprepare : FailsAs Failure.Inner (prepare definition actor.org) := by
    refine .bind (of_ok fun s => ⟨_, rfl⟩) fun found => ?_
    cases found with
    | none => exact .throw fun _ h => by cases h
    | some record =>
      refine .bind (.lift fun f hf => ?_) fun d => .bind (.lift fun f hf => ?_) fun p =>
        of_ok fun s => ⟨_, rfl⟩
      · cases hread : Definition.ofJson record.authored with
        | ok d => rw [hread] at hf; cases hf
        | error e =>
          rw [hread] at hf
          cases hf
          exact fun _ h => by cases h
      · cases hcompile : d.compile with
        | ok p => rw [hcompile] at hf; cases hf
        | error e =>
          rw [hcompile] at hf
          cases e <;> (cases hf; exact fun _ h => by cases h)
  -- The contact is missing, or not asked for.
  have hcontact : ∀ d, FailsAs Failure.Inner (contactFor d actor.org contact) := by
    intro d
    unfold contactFor
    split
    case h_1 | h_2 =>
      split
      · exact .throw fun _ h => by cases h
      · exact of_ok fun s => ⟨_, rfl⟩
    case h_3 id _ =>
      refine .bind (of_ok fun s => ⟨_, rfl⟩) fun found => ?_
      cases found with
      | none => exact .throw fun _ h => by cases h
      | some c => exact of_ok fun s => ⟨_, rfl⟩
  -- The execution is refused by a column, or its id is there already.
  have hcreate : ∀ d, FailsAs Failure.Inner (createExecution (.text actor.org) d) := by
    intro d
    refine .bind (of_ok fun s => ?_) fun id => .bind (of_ok fun s => ⟨_, rfl⟩) fun moment =>
      .bind (.lift fun f hf => ?_) fun e => .bind (fun s f hf => ?_) fun _ =>
        of_ok fun s => ⟨_, rfl⟩
    · rw [identify]
      split <;> exact ⟨_, rfl⟩
    · cases hdraft : d.execution id (.text actor.org) moment with
      | ok e => rw [hdraft] at hf; cases hf
      | error fault =>
        rw [hdraft] at hf
        cases hf
        exact fun _ h => by cases h
    · rw [result_add] at hf
      split at hf
      · cases hf
        exact fun _ h => by cases h
      · cases hf
  -- What is left, the trail and the notices among it, does not fail in any other way.
  refine .bind (.bind hprepare fun r => .bind (hcontact _) fun c => .bind (hcreate _) fun e =>
    of_ok fun s => ⟨_, rfl⟩) fun k => .bind (of_ok fun s => ⟨_, rfl⟩) fun _ =>
      .bind (.holding (of_ok (exists_result_tryCatch fun _ _ => ⟨(), rfl⟩)) fun _ h => by cases h)
        fun _ => of_ok fun s => ⟨_, rfl⟩

-- ============================================================================
-- New executions
-- ============================================================================

/-- A kept execution has an id and has begun to run the compiled program, and there is nothing else
to tell of it. -/
structure Kept.Begun (k : Kept) : Prop where
  id : k.execution.id ≠ ""
  state : k.execution.state = RunPhase.running.word
  steps : k.execution.steps = k.runnable.program.toJson
  workflow : k.execution.workflow = none
  run : k.execution.run = none
  details : k.execution.details = .null

/-- An execution that was drafted is running, has the steps of the draft, and no run yet. -/
theorem begun_of_draft {d : ExecutionDraft} {id org : Json} {moment : Moment} {e : Execution}
    (h : d.execution id org moment = .ok e) :
    Column.text id = .ok (some e.id) ∧ e.state = RunPhase.running.word ∧ e.steps = d.steps ∧
      e.workflow = none ∧ e.run = none ∧ e.details = .null := by
  rw [ExecutionDraft.execution] at h
  obtain ⟨_, hid, h⟩ := bind_eq_ok_iff.1 h
  iterate 6 obtain ⟨_, -, h⟩ := bind_eq_ok_iff.1 h
  obtain ⟨_, hidTaken, h⟩ := bind_eq_ok_iff.1 h
  iterate 2 obtain ⟨_, -, h⟩ := bind_eq_ok_iff.1 h
  obtain ⟨_, -, hkept⟩ := bind_eq_ok_iff.1 h
  obtain rfl := required_eq_ok hidTaken
  cases hkept
  exact ⟨hid, rfl, rfl, rfl, rfl, rfl⟩

/-- What is kept before the engine is asked is an execution that has just begun. -/
theorem begun_of_keep {definition : String} {actor : AccessContext} {contact : Option String}
    {s s' : Session} {k : Kept} (h : result (keep definition actor contact) s = (.ok k, s')) :
    k.Begun := by
  obtain ⟨kept, entered, henter, hrest⟩ := result_bind_eq_ok_iff.1 h
  obtain ⟨_, _, -, hrest⟩ := result_bind_eq_ok_iff.1 hrest
  obtain ⟨_, _, -, hdone⟩ := result_bind_eq_ok_iff.1 hrest
  cases hdone
  obtain ⟨r, prepared, -, hrest⟩ := result_bind_eq_ok_iff.1 henter
  obtain ⟨c, found, -, hkeep⟩ := result_bind_eq_ok_iff.1 hrest
  obtain ⟨e, created, hcreate, hdone⟩ := result_bind_eq_ok_iff.1 hkeep
  cases hdone
  obtain ⟨⟨id, moment, hid, hdraft⟩, -, -⟩ := created_of_result hcreate
  obtain ⟨hcolumn, hstate, hsteps, hworkflow, hrun, hdetails⟩ := begun_of_draft hdraft
  obtain ⟨n, rfl⟩ := hid rfl
  have hnamed : "exec-" ++ toString n = e.id := Option.some.inj (Except.ok.inj hcolumn)
  exact ⟨by simp [← hnamed], hstate, hsteps, hworkflow, hrun, hdetails⟩

/-- A change of a new execution leaves those before it as they are. -/
theorem map_change_new {before : List Execution} {e : Execution} {org : String} (horg : e.org = org)
    (hfresh : ∀ other ∈ before, other.id ≠ e.id) (f : Execution → Execution) :
    ((before ++ [e]).map fun x => if Record.isOf e.id org x then f x else x) = before ++ [f e] := by
  have hself : Record.isOf e.id org e = true := by simp [Record.isOf, Record.id, Record.org, horg]
  have hbefore : ∀ x ∈ before, (if Record.isOf e.id org x then f x else x) = x := by
    intro x hx
    have hother : Record.isOf e.id org x = false := by
      simp [Record.isOf, Record.id, hfresh x hx]
    rw [hother]
    rfl
  rw [List.map_append, List.map_congr_left hbefore, List.map_id']
  simp [hself]

/-- A new execution is found by its id and organization, since no other one has the id. -/
theorem find?_new {before : List Execution} {e : Execution}
    (hfresh : ∀ other ∈ before, other.id ≠ e.id) :
    (before ++ [e]).find? (Record.isOf e.id e.org) = some e := by
  have hnone : before.find? (Record.isOf e.id e.org) = none := by
    rw [List.find?_eq_none]
    intro other hother hof
    simp only [Record.isOf, Record.id, Bool.and_eq_true, beq_iff_eq] at hof
    exact hfresh other hother hof.1
  have hself : Record.isOf e.id e.org e = true := by simp [Record.isOf, Record.id, Record.org]
  rw [List.find?_append, hnone, Option.none_or, List.find?_singleton, if_pos hself]

-- ============================================================================
-- Reports about a new execution
-- ============================================================================

/-- A report about a new execution is taken by it. -/
theorem result_report_new {r : Execution.Report} {e e' : Execution} {s : Session}
    {before : List Execution} (hworking : s.working.executions = before ++ [e])
    (hfresh : ∀ other ∈ before, other.id ≠ e.id) (happly : r.apply s.now.bare e = .ok e') :
    result (reportExecution (.text e.id) (.text e.org) r) s =
      (.ok (some e'), { s with working := { s.working with executions := before ++ [e'] } }) := by
  -- The execution is found, changed, and put back where it was: at the end.
  have hfind : result (findBy? (.text e.id) (.text e.org) : Tx (Option Execution)) s =
      (.ok (some e), s) := by
    show (Except.ok (s.working.executions.find? _), s) = _
    rw [hworking, find?_new hfresh]
  obtain ⟨hid, horg, -⟩ := Execution.Report.fields_of_apply happly
  have hchange : (Record.all s.working : List Execution).map (fun x =>
      if Record.isOf e'.id e'.org x then e' else x) = before ++ [e'] := by
    show s.working.executions.map _ = _
    rw [hworking, hid, horg]
    exact map_change_new rfl hfresh fun _ => e'
  rw [reportExecution, result_bind, hfind]
  dsimp only
  rw [result_bind, result_bareNow]
  dsimp only
  rw [result_bind, result_lift, happly]
  dsimp only
  rw [result_bind, result_change, hchange]
  rfl

-- ============================================================================
-- Starting
-- ============================================================================

/-- An execution that could not be started, as it is kept. -/
def failed (d : Definition) (e : Execution) (error : String) (moment : Moment) : Execution :=
  { e with
    status := failedStatus d
    state := RunPhase.error.word
    details := .obj [("triggerError", .text error)]
    completed := some moment
    updated := moment }

/-- A new execution that could not be started is kept as such. -/
theorem result_compensate (d : Definition) {e : Execution} (error : String) {s : Session}
    {before : List Execution} (hworking : s.working.executions = before ++ [e])
    (hfresh : ∀ other ∈ before, other.id ≠ e.id) (hdetails : e.details = .null) :
    let records := { s.working with executions := before ++ [failed d e error s.now.bare] }
    result (compensate d e error) s =
      (.ok (), { s with working := records, committed := records }) := by
  intro records
  -- The report of a failed start, applied to an execution without details.
  have happly : Execution.Report.apply {
      status := .text (failedStatus d)
      state := .text RunPhase.error.word
      completed := true
      details := .obj [("triggerError", .text error)] } s.now.bare e =
        .ok (failed d e error s.now.bare) := by
    cases e
    cases hdetails
    rfl
  have hreport := result_report_new hworking hfresh happly
  have hdiscard : result (discard (reportExecution (.text e.id) (.text e.org) _)) s =
      (.ok (), { s with working := records }) :=
    (result_map (Function.const _ ()) _ s).trans (by rw [hreport]; rfl)
  rw [compensate, result_bind, hdiscard]
  rfl

/-- An execution whose run the engine has taken, as it is kept. -/
def named (e : Execution) (moment : Moment) : Execution :=
  { e with
    workflow := some (Engine.workflowOf e.id)
    run := some (Engine.firstTry (Engine.workflowOf e.id))
    updated := moment }

/-- What the run of a kept execution is given. -/
abbrev Kept.params (k : Kept) : Json := Trigger.params k.runnable k.execution k.contact

section Start

variable (actor : AccessContext) {k : Kept} {s : Session} {before : List Execution}
  (hworking : s.working.executions = before ++ [k.execution])
  (hfresh : ∀ other ∈ before, other.id ≠ k.execution.id)

include hworking hfresh

/-- If the engine does not take the run of a new execution, the execution is kept as failed. -/
theorem result_start_refused (hdetails : k.execution.details = .null) {error : String}
    (hanswer : (s.engine.start k.execution.id k.params).1 = .error error) :
    ∃ s', result (start actor k) s =
        (.error (.integration ("Failed to start workflow: " ++ error)), s') ∧
      s'.working = { s.working with
        executions := before ++ [failed k.runnable.definition k.execution error s.now.bare] } ∧
      s'.committed = s'.working ∧ s'.engine.sent = s.engine.sent := by
  -- A refused start leaves no trace at the engine.
  have hsent : (s.engine.start k.execution.id k.params).2.sent = s.engine.sent := by
    rcases start_engine_cases s.engine k.execution.id k.params with ⟨_, -, hsent⟩ | ⟨htaken, -⟩
    · exact hsent
    · rw [htaken] at hanswer
      cases hanswer
  have hcompensate := result_compensate k.runnable.definition error
    (s := { s with engine := (s.engine.start k.execution.id k.params).2 }) hworking hfresh hdetails
  have hask : result (Store.ask fun engine => engine.start k.execution.id k.params) s =
      (.ok (.error error), { s with engine := (s.engine.start k.execution.id k.params).2 }) := by
    rw [← hanswer]
    rfl
  rw [start, result_bind, hask]
  dsimp only
  rw [result_bind, hcompensate]
  exact ⟨_, rfl, rfl, rfl, hsent⟩

/-- If the engine takes the run of a new execution, the execution is kept with the name of the
run. -/
theorem result_start_taken (horg : k.execution.org = actor.org)
    (hanswer : (s.engine.start k.execution.id k.params).1 = .ok ()) :
    ∃ shown s', result (start actor k) s = (.ok shown, s') ∧ shown.id = k.execution.id ∧
      s'.working = { s.working with executions := before ++ [named k.execution s.now.bare] } ∧
      s'.committed = s'.working ∧ s'.engine.sent =
        s.engine.sent ++ [.start k.params (Engine.workflowOf k.execution.id)] := by
  -- A start that was taken is the last thing that the engine was sent.
  have hsent : (s.engine.start k.execution.id k.params).2.sent =
      s.engine.sent ++ [.start k.params (Engine.workflowOf k.execution.id)] := by
    rcases start_engine_cases s.engine k.execution.id k.params with ⟨_, hrefused, -⟩ | ⟨-, hsent⟩
    · rw [hrefused] at hanswer
      cases hanswer
    · exact hsent
  have hask : result (Store.ask fun engine => engine.start k.execution.id k.params) s =
      (.ok (.ok ()), { s with engine := (s.engine.start k.execution.id k.params).2 }) := by
    rw [← hanswer]
    rfl
  rw [start, result_bind, hask]
  -- The row is then given the names of the workflow and of its run.
  refine ⟨_, _, rfl, rfl, ?_, rfl, hsent⟩
  refine congrArg (fun executions => ({ s.working with executions } : Records)) ?_
  show s.working.executions.map _ = _
  rw [hworking]
  exact map_change_new horg hfresh fun e => { e with
    workflow := some (Engine.workflowOf k.execution.id)
    run := some (Engine.firstTry (Engine.workflowOf k.execution.id))
    updated := s.now.bare }

end Start

-- ============================================================================
-- Attempts
-- ============================================================================

/-- An attempt to start an execution, at a moment and with what the engine does then. -/
structure Attempt where
  definition : String
  actor : AccessContext
  contact : Option String
  now : Moment
  trouble : EngineTrouble
  connected : Bool

/-- The session in which an attempt is made: it sees what is committed, and the store takes what is
put into it. -/
def Attempt.session (a : Attempt) (s : Session) : Session :=
  { s with
    working := s.committed
    now := a.now
    engine := { s.engine with trouble := a.trouble, connected := a.connected }
    refusesAudit := false }

/-- Makes an attempt. -/
def Attempt.make (a : Attempt) (s : Session) : Except Failure Execution × Session :=
  transact (trigger a.definition a.actor a.contact) (a.session s)

/-- Makes attempts one after the other. -/
def attempts (s : Session) (made : List Attempt) : Session :=
  made.foldl (fun s a => (a.make s).2) s

/-- One execution is new. It comes behind those that were there, and none of them has its id. -/
structure Adds (s s' : Session) (e : Execution) : Prop where
  executions : s'.committed.executions = s.committed.executions ++ [e]
  fresh : ∀ other ∈ s.committed.executions, other.id ≠ e.id

/-- A new execution is running under the names of its run, and nothing was sent to the engine but
the start of this run, with the steps that are kept. -/
structure Started (s s' : Session) (e : Execution) : Prop extends Adds s s' e where
  state : e.state = RunPhase.running.word
  workflow : e.workflow = some (Engine.workflowOf e.id)
  run : e.run = some (Engine.firstTry (Engine.workflowOf e.id))
  sent : ∃ given : Fields, given.value "workflow_execution_id" = .text e.id ∧
    given.value "steps" = e.steps ∧
    s'.engine.sent = s.engine.sent ++ [.start (.object given) (Engine.workflowOf e.id)]

/-- A new execution of a definition has failed because of an error of the engine: it is over, has no
run, tells of the error, and has the status for failures if that is declared, else the initial
one. -/
structure Compensated (d : Definition) (error : String) (s s' : Session) (e : Execution) :
    Prop extends
    Adds s s' e where
  state : e.state = RunPhase.error.word
  completed : e.completed.isSome
  workflow : e.workflow = none
  run : e.run = none
  details : e.details = .obj [("triggerError", .text error)]
  status : e.status = if "failed" ∈ d.statuses.map Status.id then "failed" else d.initialStatus
  sent : s'.engine.sent = s.engine.sent

/-- What an attempt leaves behind. Either the engine has taken the run of the one new execution, or
it has not, which is why the attempt fails, or the attempt fails before an execution is kept, and
neither the store nor the engine has been changed. -/
def Attempt.Leaves (a : Attempt) (s : Session) : Except Failure Execution → Session → Prop
  | .ok shown, s' => ∃ e, shown.id = e.id ∧ e.org = a.actor.org ∧ Started s s' e
  | .error f, s' =>
    ((result (keep a.definition a.actor a.contact) (a.session s)).1 = .error f ∧ f.Inner ∧
        s'.committed = s.committed ∧ s'.engine = (a.session s).engine) ∨
      ∃ record ∈ s.committed.definitions, Record.isOf a.definition a.actor.org record ∧
        ∃ d e given error, Definition.ofJson record.authored = .ok d ∧ e.org = a.actor.org ∧
          ((a.session s).engine.start e.id given).1 = .error error ∧
          f = .integration ("Failed to start workflow: " ++ error) ∧ Compensated d error s s' e

/-- An attempt that keeps an execution, on what the engine makes of it: either it does not take the
run, or it does. -/
structure Attempt.Keeps (a : Attempt) (s : Session) (k : Kept) (kept : Session) : Prop where
  keep : result (keep a.definition a.actor a.contact) (a.session s) = (.ok k, kept)
  follows : k.Follows a.definition a.actor (a.session s) kept
  outcome :
    (∃ error, ((a.session s).engine.start k.execution.id k.params).1 = .error error ∧
      (a.make s).1 = .error (.integration ("Failed to start workflow: " ++ error)) ∧
      (a.make s).2.committed.executions =
        s.committed.executions ++ [failed k.runnable.definition k.execution error kept.now.bare] ∧
      (a.make s).2.engine.sent = s.engine.sent) ∨
    ∃ shown, (a.make s).1 = .ok shown ∧ shown.id = k.execution.id ∧
      (a.make s).2.committed.executions =
        s.committed.executions ++ [named k.execution kept.now.bare] ∧
      (a.make s).2.engine.sent =
        s.engine.sent ++ [.start k.params (Engine.workflowOf k.execution.id)]

/-- An attempt fails before it changes anything, or keeps an execution. -/
theorem make_cases (a : Attempt) (s : Session) :
    (∃ f, (result (keep a.definition a.actor a.contact) (a.session s)).1 = .error f ∧
      (a.make s).1 = .error f ∧ (a.make s).2.committed = s.committed ∧
      (a.make s).2.engine = (a.session s).engine) ∨
    ∃ k kept, a.Keeps s k kept := by
  have hmake : a.make s = transact (trigger a.definition a.actor a.contact) (a.session s) := rfl
  rw [transact_eq, trigger_eq, result_bind] at hmake
  rcases keep_cases a.definition a.actor a.contact (a.session s) with
    ⟨f, s', hkeep, hcommitted, hengine⟩ | ⟨k, kept, hkeep, hfollows, -, hengine⟩
  -- Nothing was kept, so the attempt ends with that failure, and the engine was not asked.
  · rw [hkeep] at hmake ⊢
    rw [hmake]
    exact .inl ⟨f, rfl, rfl, hcommitted rfl, hengine⟩
  -- Something was kept: the answer of the engine decides.
  · refine .inr ⟨k, kept, hkeep, hfollows, ?_⟩
    have hworking : kept.working.executions = s.committed.executions ++ [k.execution] :=
      hfollows.working
    rw [hkeep] at hmake
    dsimp only at hmake
    cases hanswer : (kept.engine.start k.execution.id k.params).1 with
    | error error =>
      obtain ⟨s', hstart, hrecords, hcommitted, hsent⟩ := result_start_refused a.actor hworking
        hfollows.fresh (begun_of_keep hkeep).details hanswer
      rw [hstart] at hmake
      rw [hengine] at hanswer hsent
      rw [hmake]
      exact .inl ⟨error, hanswer, rfl,
        congrArg Records.executions (hcommitted.trans hrecords), hsent⟩
    | ok _ =>
      obtain ⟨shown, s', hstart, hshown, hrecords, -, hsent⟩ := result_start_taken a.actor hworking
        hfollows.fresh hfollows.org hanswer
      rw [hstart] at hmake
      rw [hengine] at hsent
      rw [hmake]
      exact .inr ⟨shown, rfl, hshown, congrArg Records.executions hrecords, hsent⟩

/-- Every attempt leaves one of these behind. -/
theorem leaves_make (a : Attempt) (s : Session) :
    a.Leaves s (a.make s).1 (a.make s).2 := by
  rcases make_cases a s with ⟨f, hfails, hmade, hcommitted, hengine⟩ |
    ⟨k, kept, hkeep, hfollows, houtcome⟩
  -- The attempt failed before an execution was kept.
  · rw [hmade]
    exact .inl ⟨hfails, fails_keep _ _ _ _ f hfails, hcommitted, hengine⟩
  have hbegun := begun_of_keep hkeep
  rcases houtcome with ⟨error, hanswer, hmade, hexecutions, hsent⟩ |
    ⟨shown, hmade, hshown, hexecutions, hsent⟩
  -- The engine refused the run.
  · have hcompensated : Compensated k.runnable.definition error s (a.make s).2
        (failed k.runnable.definition k.execution error kept.now.bare) := {
      executions := hexecutions
      fresh := hfollows.fresh
      state := rfl
      completed := rfl
      workflow := hbegun.workflow
      run := hbegun.run
      details := rfl
      status := by simp [failed, failedStatus]
      sent := hsent }
    rw [hmade]
    exact .inr ⟨_, hfollows.record, hfollows.isOf, _,
      failed k.runnable.definition k.execution error kept.now.bare, _, error,
      hfollows.prepared.read, hfollows.org, hanswer, rfl, { hcompensated with }⟩
  -- The engine took the run.
  · have hstarted : Started s (a.make s).2 (named k.execution kept.now.bare) := {
      executions := hexecutions
      fresh := hfollows.fresh
      state := hbegun.state
      workflow := rfl
      run := rfl
      sent := ⟨given k.runnable k.execution k.contact, rfl, hbegun.steps.symm, hsent⟩ }
    rw [hmade]
    exact ⟨named k.execution kept.now.bare, hshown, hfollows.org, hstarted⟩

-- ============================================================================
-- Several attempts
-- ============================================================================

/-- The engine has been given the run of an execution, with the steps that are kept with it. -/
def Begins (engine : Engine) (e : Execution) : Prop :=
  ∃ given : Fields, given.value "workflow_execution_id" = .text e.id ∧
    given.value "steps" = e.steps ∧
    EngineCall.start (.object given) (Engine.workflowOf e.id) ∈ engine.sent

/-- Every execution that is kept as running has a run that the engine was given. -/
def Backed (s : Session) : Prop :=
  ∀ e ∈ s.committed.executions, e.state = RunPhase.running.word → Begins s.engine e

theorem Begins.mono {engine engine' : Engine} {e : Execution} (h : Begins engine e)
    (hsent : ∀ call ∈ engine.sent, call ∈ engine'.sent) : Begins engine' e := by
  obtain ⟨given, hid, hsteps, hcall⟩ := h
  exact ⟨given, hid, hsteps, hsent _ hcall⟩

/-- After an attempt no execution is running without a run, if none was before. -/
theorem backed_make (a : Attempt) {s : Session} (h : Backed s) : Backed (a.make s).2 := by
  have hleaves := leaves_make a s
  rcases hmake : a.make s with ⟨_ | _, s'⟩ <;> rw [hmake] at hleaves
  case error f =>
    rcases hleaves with ⟨-, -, hcommitted, hengine⟩ |
      ⟨_, -, -, _, e, _, error, -, -, -, -, hcompensated⟩
    -- Nothing changed, and the engine was sent nothing.
    · intro e he hrunning
      rw [hcommitted] at he
      exact (h e he hrunning).mono fun call hcall => by rw [hengine]; exact hcall
    -- The new execution is not running, and the others are as before.
    · intro other hother hrunning
      rw [hcompensated.executions, List.mem_append, List.mem_singleton] at hother
      rcases hother with hother | rfl
      · exact (h other hother hrunning).mono fun call hcall => by
          rw [hcompensated.sent]; exact hcall
      · rw [hcompensated.state] at hrunning
        exact absurd hrunning (by decide)
  case ok shown =>
    obtain ⟨e, -, -, hstarted⟩ := hleaves
    obtain ⟨given, hid, hsteps, hsent⟩ := hstarted.sent
    -- The new execution is running, and its start is what the engine was sent last.
    intro other hother hrunning
    rw [hstarted.executions, List.mem_append, List.mem_singleton] at hother
    rcases hother with hother | rfl
    · refine (h other hother hrunning).mono fun call hcall => ?_
      rw [hsent]
      exact List.mem_append_left _ hcall
    · refine ⟨given, hid, hsteps, ?_⟩
      rw [hsent]
      exact List.mem_append_right _ (List.mem_singleton.2 rfl)

/-- Starting executions is all or compensated. An attempt leaves one new execution that is running,
with the run that the engine has taken, or one that is marked as failed because the engine has not
taken it, or it has changed nothing. So whatever attempts are made one after the other, whatever the
engine does about each, no execution is running without a run, if none was before. -/
theorem all_or_compensated (s : Session) :
    (∀ a : Attempt, a.Leaves s (a.make s).1 (a.make s).2) ∧
      (Backed s → ∀ made : List Attempt, Backed (attempts s made)) := by
  refine ⟨fun a => leaves_make a s, fun h made => ?_⟩
  induction made generalizing s with
  | nil => exact h
  | cons a rest ih => exact ih (a.make s).2 (backed_make a h)

/-- An attempt to start an execution of the stored definition, with this trouble of the engine. -/
def attemptWith (trouble : EngineTrouble) : Attempt where
  definition := "case"
  actor := ann
  contact := none
  now := ⟨⟨2024, 5, 18⟩, 12, 0, 0, 0, none⟩
  trouble
  connected := false

/-- An attempt that the engine does not take, and one that it takes. -/
def secondTime : List Attempt := [attemptWith { start := some "down" }, attemptWith {}]

theorem all_or_compensated_secondTime :
    Backed (storing (submitted (.obj []))) ∧
      (attempts (storing (submitted (.obj []))) secondTime).committed.executions.map
        Execution.state =
        ["error", "running"] ∧
      Backed (attempts (storing (submitted (.obj []))) secondTime) := by
  have hbefore : Backed (storing (submitted (.obj []))) := by
    have hnone : (storing (submitted (.obj []))).committed.executions = [] := rfl
    intro e he
    rw [hnone] at he
    cases he
  have hstates : (attempts (storing (submitted (.obj []))) secondTime).committed.executions.map
      Execution.state = ["error", "running"] := by
    with_unfolding_all exact rfl
  exact ⟨hbefore, hstates, (all_or_compensated _).2 hbefore secondTime⟩

end Trigger
end Casework
