/-
  Casework.Proofs.Execution.Start

  Starting executions, in two parts. First the execution is kept: it is put into the store with its
  initial status, and that is committed before anything else happens. Then the engine is asked to
  run it, with what is known from the first part.
-/
import Casework.Execution.Trigger
import Casework.Proofs.Execution.Report
import Casework.Proofs.Store.Commuting

namespace Casework

open Store Result

namespace Trigger

-- ============================================================================
-- The two parts
-- ============================================================================

/-- An execution that is kept and is going to be started. -/
structure Kept where
  runnable : Runnable
  contact : Option Contact
  execution : Execution

/-- What an execution begins with. -/
def draft (r : Runnable) (actor : AccessContext) (contact : Option Contact) : ExecutionDraft where
  definition := .text r.record.id
  version := .nat r.record.version
  contact := .optText (contact.map Contact.id)
  status := .text r.definition.initialStatus
  steps := r.program.toJson
  startedBy := .text actor.user

/-- Puts an execution into the store. -/
def enter (definition : String) (actor : AccessContext) (contact : Option String) : Tx Kept := do
  let runnable ← prepare definition actor.org
  let contact ← contactFor runnable.definition actor.org contact
  let execution ← createExecution (.text actor.org) (draft runnable actor contact)
  pure ⟨runnable, contact, execution⟩

/-- Puts an entry about a kept execution into the audit trail. -/
def log (actor : AccessContext) (k : Kept) : Tx Unit :=
  Store.record actor.org (some actor.user) "workflow" k.execution.id "created" <| .obj [
    ("definitionName", .text k.runnable.record.name), ("contactId", .optText k.execution.contact),
    ("source", .text "trigger_api")]

/-- Keeps an execution. -/
def keep (definition : String) (actor : AccessContext) (contact : Option String) : Tx Kept := do
  let k ← enter definition actor contact
  Store.commit
  Store.holding (log actor k)
  pure k

/-- Has a kept execution run by the engine. -/
def start (actor : AccessContext) (k : Kept) : Tx Execution := do
  match ← Store.ask fun engine =>
    engine.start k.execution.id (params k.runnable k.execution k.contact) with
  | .error error =>
    compensate k.runnable.definition k.execution error
    throw (.integration ("Failed to start workflow: " ++ error))
  | .ok () =>
    let workflow := Engine.workflowOf k.execution.id
    let run := Engine.firstTry workflow
    Store.nameRun k.execution.id actor.org workflow (some run)
    Store.commit
    pure { k.execution with workflow := some workflow, run := some run, started := ← Store.now }

/-- A trigger keeps an execution, and then starts its run. -/
theorem trigger_eq (definition : String) (actor : AccessContext) (contact : Option String) :
    trigger definition actor contact = keep definition actor contact >>= start actor := by
  simp only [keep, enter, bind_assoc, pure_bind]
  rfl

-- ============================================================================
-- Keeping
-- ============================================================================

/-- A definition that is ready to be run has been read from its record, and its program compiled. -/
structure Prepared (r : Runnable) : Prop where
  read : Definition.ofJson r.record.authored = .ok r.definition
  compiled : r.definition.compile = .ok r.program

/-- What is read without an error is the definition. -/
theorem read_eq_ok {α : Type} {x : Except CompileError α} {a : α} (h : read x = .ok a) :
    x = .ok a := by
  cases x with
  | ok b => cases h; rfl
  | error e => cases h

theorem compiled_eq_ok {α : Type} {x : Except Refusal α} {a : α} (h : compiled x = .ok a) :
    x = .ok a := by
  cases x with
  | ok b => cases h; rfl
  | error e => cases e <;> cases h

/-- What is prepared is a stored definition with its program, and nothing is changed by it. -/
theorem prepared_of_result {id org : String} {s s' : Session} {r : Runnable}
    (h : result (prepare id org) s = (.ok r, s')) :
    s' = s ∧ Prepared r ∧ r.record ∈ s.working.definitions ∧ Record.isOf id org r.record := by
  have hfind : result (definition? id org) s =
      (.ok (s.working.definitions.find? (Record.isOf id org)), s) := rfl
  rw [prepare, result_bind, hfind] at h
  dsimp only at h
  cases hrecord : s.working.definitions.find? (Record.isOf id org) with
  | none =>
    rw [hrecord] at h
    cases h
  | some record =>
    rw [hrecord] at h
    obtain ⟨d, _, hread, hrest⟩ := result_bind_eq_ok_iff.1 h
    obtain ⟨hdefinition, rfl⟩ := result_lift_eq_ok_iff.1 hread
    obtain ⟨p, _, hcompiled, hready⟩ := result_bind_eq_ok_iff.1 hrest
    obtain ⟨hprogram, rfl⟩ := result_lift_eq_ok_iff.1 hcompiled
    cases hready
    exact ⟨rfl, ⟨read_eq_ok hdefinition, compiled_eq_ok hprogram⟩,
      List.mem_of_find?_eq_some hrecord, List.find?_some hrecord⟩

theorem moves_prepare {R : Progress} (id org : String) : Moves R (prepare id org) := by
  refine .bind (.of_records_eq fun _ => ⟨rfl, rfl, rfl⟩) fun found => ?_
  cases found with
  | none => exact .throw _
  | some record => exact .bind (.lift _) fun _ => .bind (.lift _) fun _ => .pure _

/-- To look for the contact changes nothing. -/
theorem contactFor_reads (d : Definition) (org : String) (contact : Option String) (s : Session) :
    (result (contactFor d org contact) s).2 = s := by
  unfold contactFor
  split
  case h_1 | h_2 => split <;> rfl
  case h_3 id _ =>
    have hfind : result (contact? id org) s =
        (.ok (s.working.contacts.find? (Record.isOf id org)), s) := rfl
    rw [result_bind, hfind]
    dsimp only
    cases s.working.contacts.find? (Record.isOf id org) <;> rfl

/-- To create an execution moves the store in some way, without a commit. -/
theorem moves_createExecution (org : Json) (d : ExecutionDraft) :
    Moves anyhow (createExecution org d) :=
  .bind (.identify _ _) fun _ => .bind .bareNow fun _ => .bind (.liftColumn _) fun e =>
    .bind (.add e fun _ _ => trivial) fun _ => .pure _

/-- A new execution comes behind those that are there, and has an id that none of them has. -/
theorem created_of_result {org : Json} {d : ExecutionDraft} {s s' : Session} {e : Execution}
    (h : result (createExecution org d) s = (.ok e, s')) :
    (∃ id moment, (d.id = .null → ∃ n : Nat, id = .text ("exec-" ++ toString n)) ∧
        d.execution id org moment = .ok e) ∧
      s'.working.executions = s.working.executions ++ [e] ∧
      ∀ other ∈ s.working.executions, other.id ≠ e.id := by
  obtain ⟨id, moment, r, hid, hdraft, rfl, hnew, hworking⟩ := added_of_result h
  refine ⟨⟨id, moment, hid, hdraft⟩, congrArg Records.executions hworking,
    fun other hother hid => ?_⟩
  exact List.any_eq_false.1 hnew other hother (beq_iff_eq.2 hid.symm)

/-- An execution that is kept from a draft has the status and the organization that it was given. -/
theorem fields_of_draft {d : ExecutionDraft} {id : Json} {org status : String} {moment : Moment}
    {e : Execution} (hstatus : d.status = .text status)
    (h : d.execution id (.text org) moment = .ok e) : e.org = org ∧ e.status = status := by
  rw [ExecutionDraft.execution, hstatus] at h
  obtain ⟨_, -, h⟩ := bind_eq_ok_iff.1 h
  obtain ⟨_, horgText, h⟩ := bind_eq_ok_iff.1 h
  iterate 3 obtain ⟨_, -, h⟩ := bind_eq_ok_iff.1 h
  obtain ⟨_, hstatusText, h⟩ := bind_eq_ok_iff.1 h
  cases horgText
  cases hstatusText
  -- The columns are read; now those that must not be empty are taken.
  iterate 2 obtain ⟨_, -, h⟩ := bind_eq_ok_iff.1 h
  obtain ⟨_, horgTaken, h⟩ := bind_eq_ok_iff.1 h
  obtain ⟨_, -, h⟩ := bind_eq_ok_iff.1 h
  obtain ⟨_, hstatusTaken, h⟩ := bind_eq_ok_iff.1 h
  cases horgTaken
  cases hstatusTaken
  cases h
  exact ⟨rfl, rfl⟩

theorem moves_enter (definition : String) (actor : AccessContext) (contact : Option String) :
    Moves anyhow (enter definition actor contact) := by
  refine .bind (moves_prepare _ _) fun r => .bind ?_ fun _ =>
    .bind (moves_createExecution _ _) fun _ =>
    .pure _
  refine .of_records_eq fun s => ?_
  rw [contactFor_reads]
  exact ⟨rfl, rfl, rfl⟩

/-- How a kept execution follows from what a session saw before. -/
structure Kept.Follows (k : Kept) (definition : String) (actor : AccessContext) (s s' : Session) :
    Prop where
  prepared : Prepared k.runnable
  record : k.runnable.record ∈ s.working.definitions
  isOf : Record.isOf definition actor.org k.runnable.record
  org : k.execution.org = actor.org
  status : k.execution.status = k.runnable.definition.initialStatus
  fresh : ∀ e ∈ s.working.executions, e.id ≠ k.execution.id
  working : s'.working.executions = s.working.executions ++ [k.execution]

/-- What is entered is a new execution of a prepared definition, with its first status, behind all
others. -/
theorem follows_of_enter {definition : String} {actor : AccessContext} {contact : Option String}
    {s s' : Session} {k : Kept} (h : result (enter definition actor contact) s = (.ok k, s')) :
    k.Follows definition actor s s' := by
  obtain ⟨r, prepared, hprepare, hrest⟩ := result_bind_eq_ok_iff.1 h
  obtain ⟨rfl, hprepared, hrecord, hisOf⟩ := prepared_of_result hprepare
  obtain ⟨c, found, hcontact, hkeep⟩ := result_bind_eq_ok_iff.1 hrest
  obtain rfl : found = prepared := by
    rw [← contactFor_reads r.definition actor.org contact prepared, hcontact]
  obtain ⟨e, created, hcreate, hdone⟩ := result_bind_eq_ok_iff.1 hkeep
  cases hdone
  obtain ⟨⟨id, moment, -, hdraft⟩, hworking, hfresh⟩ := created_of_result hcreate
  obtain ⟨horg, hstatus⟩ := fields_of_draft rfl hdraft
  exact ⟨hprepared, hrecord, hisOf, horg, hstatus, hfresh, hworking⟩

/-- Until it is committed, an execution is kept whatever becomes of the engine and the audit
trail. -/
theorem commutes_enter {f : Session → Session} [Session.Around f] (definition : String)
    (actor : AccessContext) (contact : Option String) :
    Commutes f (enter definition actor contact) := by
  -- To prepare and to look for a contact are to search, which goes on alike around a change.
  have hprepare : Commutes f (prepare definition actor.org) := by
    refine .bind (.find? definition actor.org) fun found => ?_
    cases found with
    | none => exact .throw _
    | some record => exact .bind (.lift _) fun _ => .bind (.lift _) fun _ => .pure _
  have hcontact : ∀ d, Commutes f (contactFor d actor.org contact) := by
    intro d
    unfold contactFor
    split
    case h_1 | h_2 => exact .ite (.throw _) (.pure _)
    case h_3 id _ =>
      refine .bind (.find? id actor.org) fun found => ?_
      cases found with
      | none => exact .throw _
      | some c => exact .pure _
  exact .bind hprepare fun r => .bind (hcontact r.definition) fun c =>
    .bind (.createExecution _ _) fun _ => .pure _

/-- An execution that is entered is committed, and then an entry of the audit trail is asked for. If
it is not taken, the execution stays as it is, and nothing else happens. -/
theorem result_keep {definition : String} {actor : AccessContext} {contact : Option String}
    {s s' : Session} {k : Kept} (henter : result (enter definition actor contact) s = (.ok k, s')) :
    ∃ working, result (keep definition actor contact) s =
        (if s'.refusesAudit then .error (.store .expired) else .ok k,
          { s'.handing .audit with committed := s'.working, working }) ∧
      (working = s'.working ∨ s'.refusesAudit = false ∧ ∃ e : AuditEntry, e.org = actor.org ∧
        working = { s'.working with audit := s'.working.audit ++ [e] }) := by
  -- The entry of the trail is written behind the commit, so only it can be lost.
  obtain ⟨working, hlog, hworking⟩ := result_holding_record actor.org (some actor.user) "workflow"
    k.execution.id "created" (.obj [
      ("definitionName", .text k.runnable.record.name),
      ("contactId", .optText k.execution.contact), ("source", .text "trigger_api")])
    { s' with committed := s'.working }
  refine ⟨working, ?_, hworking⟩
  rw [keep, result_bind, henter]
  dsimp only
  rw [result_bind, show result Store.commit s' =
    (.ok (), { s' with committed := s'.working }) from rfl]
  dsimp only
  rw [result_bind, log, hlog]
  dsimp only
  -- Either the table of the trail refuses, and what the session had read expires, or all is well.
  by_cases hrefuses : s'.refusesAudit = true
  · rw [if_pos hrefuses, if_pos hrefuses]
    rfl
  · rw [if_neg hrefuses, if_neg hrefuses]
    rfl

/-- Either no execution is kept, and nothing has changed for others unless its entry of the audit
trail was not taken, or one is, and is committed. -/
theorem keep_cases (definition : String) (actor : AccessContext) (contact : Option String)
    (s : Session) :
    (∃ f s', result (keep definition actor contact) s = (.error f, s') ∧
        (s.refusesAudit = false → s'.committed = s.committed) ∧ s'.engine = s.engine) ∨
      ∃ k s', result (keep definition actor contact) s = (.ok k, s') ∧
        k.Follows definition actor s s' ∧ s'.committed.executions = s'.working.executions ∧
        s'.engine = s.engine := by
  have hmoves := moves_enter definition actor contact s
  have hrefuses := Commutes.refusesAudit_eq (fun _ => commutes_enter definition actor contact) s
  rcases henter : result (enter definition actor contact) s with ⟨f | k, s'⟩ <;>
    rw [henter] at hmoves hrefuses
  -- Nothing was entered, so nothing was committed.
  · refine .inl ⟨f, s', ?_, fun _ => hmoves.committed, hmoves.engine⟩
    rw [keep, result_bind, henter]
  · have hfollows := follows_of_enter henter
    obtain ⟨working, hkeep, hworking⟩ := result_keep henter
    cases htaken : s'.refusesAudit with
    -- A refused entry ends the request; this is the only way in which something can be committed
    -- all the same.
    | true =>
      rw [htaken] at hkeep
      refine .inl ⟨_, _, hkeep, fun hfalse => ?_, hmoves.engine⟩
      rw [← hrefuses, htaken] at hfalse
      cases hfalse
    | false =>
      rw [htaken] at hkeep
      have hexecutions : working.executions = s'.working.executions := by
        rcases hworking with rfl | ⟨-, e, -, rfl⟩ <;> rfl
      exact .inr ⟨k, _, hkeep, { hfollows with working := hexecutions.trans hfollows.working },
        hexecutions.symm, hmoves.engine⟩

-- ============================================================================
-- Starting
-- ============================================================================

theorem moves_report (id org : Json) (r : Execution.Report) :
    Moves anyhow (reportExecution id org r) :=
  moves_reportExecution _ _ _ fun _ _ _ _ _ _ _ => trivial

/-- The engine hears nothing of an execution that is marked as failed. -/
theorem engine_compensate (d : Definition) (e : Execution) (error : String) (s : Session) :
    (result (compensate d e error) s).2.engine = s.engine := by
  have hreport := (moves_report (.text e.id) (.text e.org) {
    status := .text (failedStatus d)
    state := .text RunPhase.error.word
    completed := true
    details := .obj [("triggerError", .text error)] }).map (Function.const _ ()) s
  rw [compensate, result_bind]
  rcases hresult : result (discard _) s with ⟨r, s'⟩
  rw [show result (Function.const _ () <$> _) s = (r, s') from hresult] at hreport
  cases r with
  | ok _ => exact hreport.engine
  | error f => exact hreport.engine

/-- The engine takes a run, or nothing is sent to it. -/
theorem start_engine_cases (e : Engine) (execution : String) (given : Json) :
    (∃ error, (e.start execution given).1 = .error error ∧
      (e.start execution given).2.sent = e.sent) ∨
      (e.start execution given).1 = .ok () ∧ (e.start execution given).2.sent =
        e.sent ++ [.start given (Engine.workflowOf execution)] := by
  unfold Engine.start Engine.call
  extract_lets connected
  by_cases hconnected : connected.connected
  · cases htrouble : e.trouble.start with
    | some text => exact .inl ⟨text, by simp [hconnected], by simp [hconnected, connected]; rfl⟩
    | none => exact .inr ⟨by simp [hconnected], by simp [hconnected, connected]; rfl⟩
  · exact .inl ⟨Engine.disconnected, by simp [hconnected], by simp [hconnected]; rfl⟩

/-- Either the engine does not take the run, and the execution is marked as failed, or it does, and
the run is named. -/
theorem start_cases (actor : AccessContext) (k : Kept) (s : Session) :
    (∃ f error engine, engine.sent = s.engine.sent ∧ result (start actor k) s =
        (.error f, (result (compensate k.runnable.definition k.execution error)
          { s with engine }).2)) ∨
      ∃ e s', result (start actor k) s = (.ok e, s') ∧
        s'.engine.sent = s.engine.sent ++ [.start (params k.runnable k.execution k.contact)
          (Engine.workflowOf k.execution.id)] ∧
        s'.working = (result (nameRun k.execution.id actor.org (Engine.workflowOf k.execution.id)
          (some (Engine.firstTry (Engine.workflowOf k.execution.id)))) s).2.working ∧
        s'.committed = s'.working := by
  have hask : ∀ call : Engine → Except String Unit × Engine,
      result (Store.ask call) s = (.ok (call s.engine).1, { s with engine := (call s.engine).2 }) :=
    fun _ => rfl
  rw [start, result_bind, hask]
  dsimp only
  rcases start_engine_cases s.engine k.execution.id (params k.runnable k.execution k.contact) with
    ⟨error, hcall, hsent⟩ | ⟨hcall, hsent⟩
  -- The engine refuses, and the row is put right.
  · refine .inl ?_
    rw [hcall]
    dsimp only
    rw [result_bind]
    rcases hcompensate : result (compensate k.runnable.definition k.execution error) _ with ⟨r, s'⟩
    cases r with
    | error f => exact ⟨f, error, _, hsent, by rw [hcompensate]⟩
    | ok _ => exact ⟨_, error, _, hsent, by rw [hcompensate]; rfl⟩
  -- The engine takes the run, and the row is given its name.
  · refine .inr ?_
    rw [hcall]
    exact ⟨_, _, rfl, hsent, rfl, rfl⟩

/-- The engine is asked to run what was kept, if it is asked at all. -/
theorem exists_kept_of_sent {definition : String} {actor : AccessContext} {contact : Option String}
    {s : Session} {given : Json} {workflow : String}
    (hsent : (result (trigger definition actor contact) s).2.engine.sent =
      s.engine.sent ++ [.start given workflow]) :
    ∃ (k : Kept) (s' : Session), k.Follows definition actor s s' ∧
      given = params k.runnable k.execution k.contact := by
  rw [trigger_eq, result_bind] at hsent
  rcases keep_cases definition actor contact s with
    ⟨f, s', hkeep, -, hengine⟩ | ⟨k, s', hkeep, hfollows, -, hengine⟩
  -- The engine is asked for nothing before an execution is kept.
  · rw [hkeep] at hsent
    dsimp only at hsent
    simp [hengine] at hsent
  · rw [hkeep] at hsent
    dsimp only at hsent
    refine ⟨k, s', hfollows, ?_⟩
    rcases start_cases actor k s' with ⟨f, error, engine, hkept, hstart⟩ |
      ⟨e, s'', hstart, hstarted, -⟩
    -- A refused start sends nothing either.
    · rw [hstart, engine_compensate, hkept, hengine] at hsent
      simp at hsent
    · rw [hstart] at hsent
      dsimp only at hsent
      rw [hstarted, hengine] at hsent
      have hcall := (List.append_cancel_left hsent).symm
      simp only [List.cons.injEq, EngineCall.start.injEq] at hcall
      exact hcall.1.1

end Trigger
end Casework
