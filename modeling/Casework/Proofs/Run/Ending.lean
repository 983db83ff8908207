/-
  Casework.Proofs.Run.Ending

  How runs end. A run reports that it is over when it comes past its last step, when a wait takes
  too long, and when it fails. Until then none of its calls reports so; a failed report makes the
  run fail. So a run that returns has made one such report, as its last call, and a run that fails
  has reported the failure last.
-/
import Casework.Proofs.Program.Jump
import Casework.Proofs.Run.Report

namespace Casework

variable {σ : Type}

namespace Run

open Result RunState

-- ============================================================================
-- Ends of a run
-- ============================================================================

/-- A run has ended in a phase, which has been recorded. -/
def Ended (phase : RunPhase) (s : RunState σ) : Prop := s.phase = phase ∧ s.Closed

/-- A report that ends a run leaves it ended, or open if the report fails. -/
theorem Ensures.report {world : World σ} {base : Base} {changes : List (String × Json)}
    {phase : RunPhase} (h : Call.Ends ⟨.setState, base.params changes⟩ phase) :
    Ensures (report world base changes) (fun s => s.Quiet ∧ s.phase = phase)
      (Left (Ended phase) fun _ => Open) := by
  have hperform : Ensures (Run.perform world .setState (base.params changes))
      (fun s => s.Quiet ∧ s.phase = phase) (Left (Ended phase) fun _ => Open) := by
    refine Ensures.perform (fun s s' answer hs hcalled => ?_) fun s s' f hs hcalled => ?_
    · exact ⟨hcalled.phase.trans hs.2, hs.1.closed hcalled (hs.2 ▸ h)⟩
    · exact hs.1.isOpen_of_failed hcalled
  refine .map _ hperform fun result s hresult => ?_
  cases result <;> exact hresult

/-- A run that is quiet ends by its report of the end: closed, or open when the report failed. -/
theorem Ensures.conclude {world : World σ} {base : Base} {statuses : Json} {name : String}
    {phase : RunPhase} {changes : Option String → List (String × Json)}
    (h : ∀ status, Call.Ends ⟨.setState, base.params (changes status)⟩ phase) :
    Ensures (do
      modify fun s => { s with phase }
      let status ← lift (systemStatus name statuses)
      Run.report world base (changes status)) Quiet (Left (Ended phase) fun _ => Open) := by
  have hphase : Ensures (modify fun s => { s with phase } : Act σ PUnit) Quiet
      fun _ s => s.Quiet ∧ s.phase = phase := fun s hs => ⟨hs, rfl⟩
  exact .bind hphase (fun _ => .lift_bind (fun status _ => .report (h status))
    fun _ _ hs => hs.1.isOpen) fun _ _ hs => hs.1.isOpen

theorem Ensures.timeOut {world : World σ} {base : Base} (statuses task : Json) :
    Ensures (timeOut world base statuses task) Quiet (Left (Ended .timeout) fun _ => Open) :=
  .conclude fun _ => ⟨rfl, rfl, rfl⟩

theorem Ensures.complete {world : World σ} {base : Base} (statuses : Json) :
    Ensures (complete world base statuses) Quiet (Left (Ended .completed) fun _ => Open) :=
  .conclude fun _ => ⟨rfl, rfl, rfl⟩

/-- A step leaves a quiet run quiet, or it ends the run because of a timeout. -/
theorem Ensures.execute {world : World σ} {base : Base} (contact statuses step : Json) :
    Ensures (execute world base contact statuses step) Quiet
      (Stepped Quiet (Ended .timeout) fun _ => Open) :=
  (lasting_quiet world).execute _ _ (fun _ => trivial) (fun _ _ _ => trivial)
    (fun _ _ _ => rfl) fun _ =>
    (lasting_quiet world).awaitTask rfl (fun _ _ _ _ => trivial) (fun _ _ _ hs _ => hs.isOpen)
      fun task => .timeOut _ task

-- ============================================================================
-- Runs
-- ============================================================================

/-- How a run that returned leaves its state: it is completed or timed out, which its last call has
reported, and no other call has reported an end. -/
structure Returned (s : RunState σ) : Prop where
  phase : s.phase = .completed ∨ s.phase = .timeout
  recorded : s.Closed

/-- How a run that failed leaves its state: its last call was the report of an error. -/
structure Raised (s : RunState σ) : Prop where
  phase : s.phase = .error
  recorded : ∃ before last result, s.calls = before ++ [(last, result)] ∧ last.Ends .error

/-- After a report of the end has succeeded there is no call, save that an error is reported when
the completed tasks cannot be put in order. -/
def Rests (s : RunState σ) : Prop :=
  ∀ before last after, s.calls = before ++ (last, none) :: after → last.IsFinal →
    (∀ call ∈ after, call.1.Ends .error) ∧ (s.inbox.Orderable → after = [])

/-- How the steps of a run leave it when they are done, or when they fail: then the run is open, or
it is closed already, and its completed tasks cannot be put in order to be shown. -/
def Done {α : Type} : Except Failure α → RunState σ → Prop
  | .ok _, s => Returned s
  | .error _, s => s.Open ∨ s.Closed ∧ ¬ s.inbox.Orderable

/-- To show a run changes nothing. -/
theorem outcome_present (s : RunState σ) :
    outcome present s = (Failure.ofFault s.toJson, s) := by
  rw [present, outcome_bind, outcome_get]
  exact outcome_lift ..

/-- A run fails to be shown only if its completed tasks cannot be put in order. -/
theorem not_orderable_of_toJson {s : RunState σ} {fault : Fault} (h : s.toJson = .error fault) :
    ¬ s.inbox.Orderable := by
  rintro ⟨keys, hkeys⟩
  rw [RunState.toJson, Snapshot.toJson] at h
  have hinbox : s.snapshot.inbox = s.inbox := rfl
  rw [hinbox, hkeys] at h
  cases h

/-- A run that is over is shown, or cannot be. -/
theorem Ensures.present : Ensures (present : Act σ Json) Returned Done := by
  intro s hs
  rw [outcome_present]
  cases h : s.toJson with
  | ok view => exact hs
  | error fault => exact .inr ⟨hs.recorded, not_orderable_of_toJson h⟩

/-- The body of a run ends it, or fails while it is still open. -/
theorem Ensures.body {world : World σ} (setup : Setup) :
    Ensures (body world setup) Quiet Done := by
  rw [Run.body]
  refine .bind ((lasting_quiet world).interpret (fun _ hs => hs.isOpen)
    (fun step _ => .execute _ _ step) stepLimit 0) (fun ended => ?_) fun _ _ hs => .inl hs
  cases ended with
  | true => exact Ensures.present.mono (fun s hs => ⟨.inr hs.1, hs.2⟩) fun _ _ hs => hs
  | false =>
    refine .bind (.complete _) (fun _ => ?_) fun _ _ hs => .inl hs
    exact Ensures.present.mono (fun s hs => ⟨.inl hs.1, hs.2⟩) fun _ _ hs => hs

/-- A set of declared statuses can be asked for any status. -/
theorem exists_systemStatus (name : String) {declared : Json} {items : List Json}
    (h : declared.givenItemsOf = .ok items) :
    ∃ status, systemStatus name declared = .ok status := by
  rw [systemStatus]
  rw [Json.givenItemsOf] at h
  by_cases hgiven : declared.truthy
  · rw [if_pos hgiven] at h
    have hholds : ∃ held, declared.holds name = .ok held := by
      cases declared with
      | list items => exact ⟨_, rfl⟩
      | object fields => exact ⟨_, rfl⟩
      | text s => exact ⟨_, rfl⟩
      | null | bool | number => cases h
    simpa [hgiven] using exists_map_eq_ok hholds
  · exact ⟨some name, by simp [hgiven]⟩

/-- A report is one call, with some answer. -/
theorem exists_called_report (world : World σ) (base : Base) (changes : List (String × Json))
    (s : RunState σ) :
    ∃ result, s.Called (outcome (report world base changes) s).2 ⟨.setState, base.params changes⟩
      result := by
  have hperform : Ensures (perform world .setState (base.params changes)) (fun s' => s' = s)
      fun _ s' => ∃ result, s.Called s' ⟨.setState, base.params changes⟩ result := by
    refine Ensures.perform (fun s' s'' answer hs hcalled => ?_) fun s' s'' f hs hcalled => ?_
    · exact ⟨none, hs ▸ hcalled⟩
    · exact ⟨some f, hs ▸ hcalled⟩
  have hreport : Ensures (report world base changes) (fun s' => s' = s)
      fun _ s' => ∃ result, s.Called s' ⟨.setState, base.params changes⟩ result :=
    .map _ hperform fun _ _ h => h
  exact hreport s rfl

/-- A failure is reported by the last call, whether that succeeds or not. -/
theorem exists_called_reportFailure (world : World σ) (base : Base) {statuses : Json}
    {items : List Json} (hstatuses : statuses.givenItemsOf = .ok items) (failure : Failure)
    (s : RunState σ) :
    ∃ last result, last.Ends .error ∧
      ({ s with phase := .error } : RunState σ).Called
        (outcome (reportFailure world base statuses failure) s).2 last result := by
  obtain ⟨status, hstatus⟩ := exists_systemStatus "failed" hstatuses
  have hsame : (outcome (reportFailure world base statuses failure) s).2 =
      (outcome (report world base [
        ("status", .optText status), ("execution_state", .text RunPhase.error.word),
        ("completed", .bool true),
        ("details", .obj [("error", .text failure.message), ("failedStepId", s.step)])])
        { s with phase := .error }).2 := by
    rw [reportFailure, outcome_bind, outcome_modify]
    dsimp only
    rw [outcome_lift_bind hstatus, outcome_bind, outcome_get]
  obtain ⟨result, hcalled⟩ := exists_called_report world base _ _
  rw [hsame]
  exact ⟨_, result, ⟨rfl, rfl, rfl⟩, hcalled⟩

/-- If all steps have ids that can be looked up, there is a table of their places. -/
theorem gotoTable_of_ids {steps : List Json}
    (hids : ∀ step ∈ steps, ∃ id, step.requiredField "id" = .ok id)
    (hkeys : ∀ step ∈ steps, ∀ id, step.requiredField "id" = .ok id → ∃ key, id.key = .ok key) :
    ∃ table, Walk.gotoTable steps = .ok table := by
  rw [Walk.gotoTable_eq_foldlM]
  -- From whatever table on, so that the induction goes through the steps.
  suffices h : ∀ state, ∃ last, steps.foldlM Walk.putPlace state = .ok last by
    exact exists_map_eq_ok (h ([], 0))
  induction steps with
  | nil => exact fun state => ⟨state, rfl⟩
  | cons step rest ih =>
    intro state
    obtain ⟨id, hid⟩ := hids step List.mem_cons_self
    obtain ⟨key, hkey⟩ := hkeys step List.mem_cons_self id hid
    obtain ⟨last, hlast⟩ := ih (fun other hother => hids other (List.mem_cons_of_mem _ hother))
      (fun other hother => hkeys other (List.mem_cons_of_mem _ hother))
      (state.1.put key state.2, state.2 + 1)
    refine ⟨last, ?_⟩
    rw [List.foldlM_cons, Walk.putPlace, hid, ok_bind, hkey, ok_bind, ok_bind]
    exact hlast

theorem givenFields_eq_ok {j : Json} {operation other : String} {fields : Fields}
    (h : j.givenFields operation = .ok fields) : j.givenFields other = .ok fields := by
  unfold Json.givenFields at h ⊢
  split at h
  case isTrue hempty => rwa [if_pos hempty]
  case isFalse hgiven =>
    rw [if_neg hgiven]
    split at h
    case h_1 => exact h
    case h_2 => cases h

/-- What a run is given: both ids of the execution, steps with ids, and variables. -/
structure Given (params : Fields) : Prop where
  execution : ∃ id, params.get? "workflow_execution_id" = some id
  org : ∃ id, params.get? "org_id" = some id
  steps : ∃ steps, (params.value "steps").givenItemsOf = .ok steps ∧
    ∀ step ∈ steps, ∃ id, step.requiredField "id" = .ok id
  vars : ∃ vars, Variables.initial (params.value "contact")
    ((params.value "variables").orElse (.list [])) (params.value "workflow") = .ok vars

/-- A run is ready to begin when, besides, the ids of its steps can be looked up, and its statuses
can be gone through if there are any. -/
structure Ready (params : Fields) : Prop extends Given params where
  keys : ∀ steps, (params.value "steps").givenItemsOf = .ok steps →
    ∀ step ∈ steps, ∀ id, step.requiredField "id" = .ok id → ∃ key, id.key = .ok key
  statuses : ∃ items, (params.value "statuses").givenItemsOf = .ok items

/-- What is ready to be run is set up, which only sets the variables. -/
theorem outcome_setup {params : Fields} (h : Ready params) (s : RunState σ) :
    ∃ (setup : Setup) (vars : Variables), setup.statuses = params.value "statuses" ∧
      outcome (Run.setup params) s = (.ok setup, { s with vars }) := by
  obtain ⟨execution, hexecution⟩ := h.execution
  obtain ⟨org, horg⟩ := h.org
  obtain ⟨steps, hsteps, hids⟩ := h.steps
  obtain ⟨vars, hvars⟩ := h.vars
  obtain ⟨table, htable⟩ := gotoTable_of_ids hids (h.keys steps hsteps)
  obtain ⟨contact, hcontact, -⟩ := bind_eq_ok_iff.1 hvars
  -- The execution and the organization are there, and so are the steps with their table.
  have hexecution : (Json.object params).requiredField "workflow_execution_id" = .ok execution := by
    rw [Json.requiredField, hexecution]
  have horg : (Json.object params).requiredField "org_id" = .ok org := by
    rw [Json.requiredField, horg]
  refine ⟨⟨⟨execution, org⟩, contact.value "id", params.value "statuses", steps, table⟩,
    vars, rfl, ?_⟩
  rw [Run.setup, outcome_lift_bind hexecution, outcome_lift_bind horg,
    outcome_lift_bind (givenFields_eq_ok hcontact), outcome_lift_bind hvars, outcome_bind,
    outcome_modify]
  dsimp only
  rw [outcome_lift_bind hsteps, outcome_lift_bind htable]
  rfl

/-- Nothing is called after the last call of a closed run. -/
theorem eq_nil_of_closed {s : RunState σ} (h : s.Closed)
    {before after : List (Call × Option Failure)}
    {last : Call} (hcalls : s.calls = before ++ (last, none) :: after) (hlast : last.IsFinal) :
    after = [] := by
  obtain ⟨quiet, final, hclosed, -, hquiet⟩ := h
  rcases List.eq_nil_or_concat after with rfl | ⟨rest, other, rfl⟩
  · rfl
  · rw [hclosed, List.concat_eq_append, ← List.cons_append, ← List.append_assoc] at hcalls
    obtain ⟨rfl, -⟩ := List.append_inj' hcalls rfl
    exact absurd hlast (hquiet (last, none) (by simp))

/-- The report of a failure is all that follows a report of the end, and it does so only if the
completed tasks cannot be put in order. -/
theorem raised_of_called {s s' : RunState σ} {last : Call} {result : Option Failure}
    (hdone : s.Open ∨ s.Closed ∧ ¬ s.inbox.Orderable)
    (hcalled : ({ s with phase := .error } : RunState σ).Called s' last result)
    (hlast : last.Ends .error) : Raised s' ∧ Rests s' := by
  have hcalls : s'.calls = s.calls ++ [(last, result)] := hcalled.calls
  -- The report is the last call; of those before it none is final, unless the run was closed, which
  -- is the case of tasks without an order.
  refine ⟨⟨hcalled.phase, _, _, _, hcalls, hlast⟩, fun before other after hsplit hfinal => ?_⟩
  rcases List.eq_nil_or_concat after with rfl | ⟨rest, final, rfl⟩
  · exact ⟨by simp, fun _ => rfl⟩
  · rw [hcalls, List.concat_eq_append, ← List.cons_append, ← List.append_assoc] at hsplit
    obtain ⟨hbefore, hfinalCall⟩ := List.append_inj' hsplit rfl
    cases hfinalCall
    rcases hdone with hopen | ⟨hclosed, hunordered⟩
    · exact absurd rfl (hopen (other, none) (by simp [hbefore]) hfinal)
    · obtain rfl := eq_nil_of_closed hclosed hbefore hfinal
      refine ⟨fun call hcall => ?_, fun horderable => ?_⟩
      · obtain rfl : call = (last, result) := by simpa using hcall
        exact hlast
      · exact absurd (horderable.of_prefix hcalled.completed) hunordered

/-- A run that has been set up without a report of its end ends in one recorded state. -/
theorem recorded_of_setup (world : World σ) {params : Fields} {setup : Setup}
    {before s : RunState σ}
    (hsetup : outcome (Run.setup params) before = (.ok setup, s)) (hquiet : s.Quiet)
    {items : List Json}
    (hstatuses : setup.statuses.givenItemsOf = .ok items) :
    ∃ result s', outcome (run world params) before = (result, s') ∧ Rests s' ∧ match result with
      | .ok _ => Returned s'
      | .error _ => Raised s' := by
  have hbody : Ensures (body world setup) Quiet Done := .body setup
  have hdone := hbody s hquiet
  rw [run, outcome_bind, hsetup]
  dsimp only at hdone ⊢
  rw [outcome_tryCatch]
  rcases hbody : outcome (body world setup) s with ⟨result, s⟩
  rw [hbody] at hdone
  cases result with
  -- The body succeeds: the run is closed.
  | ok view =>
    refine ⟨_, _, rfl, fun before last after hcalls hfinal => ?_, hdone⟩
    obtain rfl := eq_nil_of_closed hdone.recorded hcalls hfinal
    exact ⟨by simp, fun _ => rfl⟩
  -- The body fails, and the failure is reported.
  | error failure =>
    obtain ⟨last, result, hlast, hcalled⟩ :=
      exists_called_reportFailure world setup.base hstatuses failure s
    obtain ⟨hraised, hrests⟩ := raised_of_called hdone hcalled hlast
    dsimp only
    rw [outcome_bind]
    rcases hreport : outcome (reportFailure world setup.base setup.statuses failure) s with
      ⟨reported, s'⟩
    rw [hreport] at hraised hrests
    cases reported with
    | ok _ => exact ⟨_, _, rfl, hrests, hraised⟩
    | error f => exact ⟨_, _, rfl, hrests, hraised⟩

/-- Every run that is ready to begin ends in one recorded state, whatever the world outside does and
whatever messages come in. -/
theorem run_recorded (world : World σ) {params : Fields} (h : Ready params) (outside : σ)
    (inbox : Inbox) :
    ∃ result s, outcome (run world params) { RunState.fresh outside with inbox } = (result, s) ∧
      Rests s ∧ match result with
        | .ok _ => Returned s
        | .error _ => Raised s := by
  obtain ⟨setup, vars, hstatuses, hsetup⟩ := outcome_setup h { RunState.fresh outside with inbox }
  obtain ⟨items, hitems⟩ := h.statuses
  rw [← hstatuses] at hitems
  exact recorded_of_setup world hsetup (fun call hcall => absurd hcall List.not_mem_nil) hitems

/-- A world in which all work succeeds and no message comes in. -/
def silent : World Unit where
  perform _ _ := (.ok (.obj [("taskId", .text "task")]), ())
  deliver _ := ([], ())

/-- Parameters with some statuses and steps. -/
def paramsOf (statuses : Json) (steps : List Json) : Fields :=
  ⟨[("workflow_execution_id", .text "execution"), ("org_id", .text "org"), ("statuses", statuses),
    ("steps", .list steps)]⟩

/-- Parameters with statuses and steps are given to a run. -/
theorem given_paramsOf (statuses : Json) {steps : List Json}
    (h : ∀ step ∈ steps, ∃ id, step.requiredField "id" = .ok id) :
    Given (paramsOf statuses steps) where
  execution := ⟨_, rfl⟩
  org := ⟨_, rfl⟩
  steps := by
    refine ⟨steps, ?_, h⟩
    cases steps <;> rfl
  vars := ⟨_, rfl⟩

/-- A task that nobody completes. -/
def waiting : List Json := [
  .obj [("id", .text "ask"), ("type", .text "assign_task"), ("config", .obj [("links", .list [])])],
  .obj [("id", .text "wait"), ("type", .text "wait_for_task"),
    ("config", .obj [("taskStepId", .text "ask")])]]

theorem run_recorded_waiting :
    Ready (paramsOf (.texts ["timeout"]) waiting) ∧
      ∃ view s, outcome (run silent (paramsOf (.texts ["timeout"]) waiting))
          { RunState.fresh () with inbox := .empty } = (.ok view, s) ∧
        s.phase = .timeout ∧ Rests s ∧ Returned s := by
  have hready : Ready (paramsOf (.texts ["timeout"]) waiting) := by
    refine ⟨given_paramsOf _ ?_, ?_, _, rfl⟩
    · simp only [waiting, List.mem_cons, List.not_mem_nil, or_false, forall_eq_or_imp, forall_eq]
      exact ⟨⟨_, rfl⟩, _, rfl⟩
    · intro steps hsteps
      cases hsteps
      simp only [waiting, List.mem_cons, List.not_mem_nil, or_false, forall_eq_or_imp, forall_eq]
      exact ⟨fun id hid => by cases hid; exact ⟨_, rfl⟩, fun id hid => by cases hid; exact ⟨_, rfl⟩⟩
  -- The run is evaluated for its result and its phase; what it leaves follows from the general
  -- statement.
  obtain ⟨result, s, hrun, hrests, hend⟩ := run_recorded silent hready () .empty
  obtain ⟨view, hview⟩ : ∃ view, (outcome (run silent (paramsOf (.texts ["timeout"]) waiting))
      { RunState.fresh () with inbox := .empty }).1 = .ok view := ⟨_, rfl⟩
  have hphase : (outcome (run silent (paramsOf (.texts ["timeout"]) waiting))
      { RunState.fresh () with inbox := .empty }).2.phase = .timeout := rfl
  rw [hrun] at hview hphase
  cases hview
  exact ⟨hready, view, s, hrun, hphase, hrests, hend⟩

/-- Runs that are not ready can end unrecorded: no failure is reported when the statuses cannot be
gone through, or when an id cannot be looked up, which shows before the run begins. When the
completed tasks cannot be put in order, an error is reported after the end. -/
theorem runs_unrecorded :
    (Given (paramsOf (.nat 5) []) ∧ ∃ f s,
      outcome (run silent (paramsOf (.nat 5) [])) (.fresh ()) = (.error f, s) ∧ s.calls = []) ∧
    (Given (paramsOf .null [.obj [("id", .list [])]]) ∧ ∃ f s,
      outcome (run silent (paramsOf .null [.obj [("id", .list [])]])) (.fresh ()) = (.error f, s) ∧
        s.phase = .running ∧ s.calls = []) ∧
    (Given (paramsOf .null []) ∧ ∃ f s completed failed,
      outcome (run silent (paramsOf .null []))
          { RunState.fresh () with inbox := ⟨[.number (.whole 1), .text "task"], none, []⟩ } =
        (.error f, s) ∧
        s.calls = [(completed, none), (failed, none)] ∧ completed.Ends .completed ∧
        failed.Ends .error) := by
  refine ⟨⟨given_paramsOf _ (by simp), _, _, rfl, rfl⟩, ⟨given_paramsOf _ ?_, _, _, rfl, rfl, rfl⟩,
    given_paramsOf _ (by simp), _, _, _, _, rfl, rfl, ⟨rfl, rfl, rfl⟩, ⟨rfl, rfl, rfl⟩⟩
  intro step hstep
  cases List.mem_singleton.1 hstep
  exact ⟨_, rfl⟩

end Run
end Casework
