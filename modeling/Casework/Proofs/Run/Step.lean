/-
  Casework.Proofs.Run.Step

  What the steps of a run keep. An invariant lasts if it survives what a run does to the outside:
  its work, its reports, its waits, and the variables that it puts. Which reports are made, which
  tasks are created, and which variables are put, depends on the step; everything else about an act
  is the same for all of them. So each act is looked at once, for any lasting invariant, and the
  interpreter once on top of them.
-/
import Casework.Proofs.Run.Act

namespace Casework.Run

variable {σ α : Type}

-- ============================================================================
-- Lasting invariants
-- ============================================================================

/-- The invariant survives the work of a run, the reports, the tasks and the variables that are
allowed, and its waits. A failure leaves what is bad instead. -/
structure Enduring (world : World σ) (reports creates : Fields → Prop) (puts : String → Prop)
    (inv : RunState σ → Prop) (bad : Failure → RunState σ → Prop) : Prop where
  /-- Neither the inbox nor what the run shows of itself matters, but for the number of its
  steps. -/
  steady : ∀ s s', s'.outside = s.outside → s'.history = s.history → s'.vars = s.vars →
    s'.stepsRun = s.stepsRun → inv s → inv s'
  put : ∀ s path value, puts path → inv s → inv { s with vars := s.vars.put path value }
  work : ∀ {activity params}, activity ≠ .setState → activity ≠ .createTask →
    Keeps (perform world activity params) inv bad
  create : ∀ {params}, creates params → Keeps (perform world .createTask params) inv bad
  report : ∀ {params}, reports params → Keeps (perform world .setState params) inv bad
  await : ∀ {seconds holds}, Keeps (await world seconds holds) inv bad
  fault : ∀ f s, inv s → bad (.fault f) s

/-- The state in which a step with this id is carried out. -/
def entering (id : Json) (s : RunState σ) : RunState σ :=
  { s with step := id, stepsRun := s.stepsRun + 1 }

/-- An invariant that endures and does not depend on the number of steps either. -/
structure Lasting (world : World σ) (reports creates : Fields → Prop) (puts : String → Prop)
    (inv : RunState σ → Prop) (bad : Failure → RunState σ → Prop) : Prop
    extends Enduring world reports creates puts inv bad where
  enter : ∀ id s, inv s → inv (entering id s)

/-- How a step leaves a run: as it should be with more to come, ended, or failed. -/
def Stepped (inv ended : RunState σ → Prop) (bad : Failure → RunState σ → Prop) :
    Except Failure Bool → RunState σ → Prop
  | .ok false, s => inv s
  | .ok true, s => ended s
  | .error f, s => bad f s

/-- A part of a step that keeps the invariant comes before the rest of the step. -/
theorem Ensures.step {act : Act σ α} {next : α → Act σ Bool} {inv ended : RunState σ → Prop}
    {bad : Failure → RunState σ → Prop} (hact : Keeps act inv bad)
    (hnext : ∀ a, Ensures (next a) inv (Stepped inv ended bad)) :
    Ensures (act >>= next) inv (Stepped inv ended bad) :=
  .after hact hnext fun _ _ h => h

theorem Ensures.goOn {inv ended : RunState σ → Prop} {bad : Failure → RunState σ → Prop} :
    Ensures (pure false : Act σ Bool) inv (Stepped inv ended bad) := fun _ h => h

/-- The failure of a wait for a task that no step has created. -/
def orphaned (step creator : Json) : Failure :=
  .application ("wait_for_task " ++ step.plain ++ " references " ++ creator.plain
    ++ " which created no task") true

/-- The failure of a run that takes too many steps. -/
def exceeded : Failure :=
  .application ("Execution exceeded " ++ toString stepLimit ++ " interpreted steps") true

/-- Takes over what was decided about a task, if anything was. -/
def settle (creator : Json) (key : Key) : Act σ Bool := do
  let s ← get
  match s.inbox.approval? key with
  | some approval => if approval.isEmpty then pure () else takeDecision creator approval
  | none => pure ()
  pure false

/-- Waits for a task that is known; tells whether that ended the run. -/
def awaitKnown (world : World σ) (base : Base) (statuses step config creator task : Json) :
    Act σ Bool := do
  report world base [("current_step_id", step)]
  let days ← lift ((config.field "timeoutDays").orElse (.int 1)).wholeOf
  let days ← lift (durationDays (max days 1))
  let key ← lift task.key
  if ← await world (days * 86400) (·.hasCompleted key) then
    let s ← get
    if ((s.taskKinds.get? key).getD .null).isTextOf "approval"
        && (s.inbox.approval? key).isNone then
      discard (await world graceSeconds fun inbox => (inbox.approval? key).isSome)
    settle creator key
  else
    timeOut world base statuses task
    pure true

/-- What comes behind the wait for a task: the decision about it is waited for, if it is to be
decided, and taken over. -/
def awaitDecision (world : World σ) (creator : Json) (key : Key) : Act σ Bool := do
  let s ← get
  if ((s.taskKinds.get? key).getD .null).isTextOf "approval"
      && (s.inbox.approval? key).isNone then
    discard (await world graceSeconds fun inbox => (inbox.approval? key).isSome)
  settle creator key

/-- How a wait for a task ends: with the decision about it, or because it took too long. -/
def endWait (world : World σ) (base : Base) (statuses creator task : Json) (key : Key)
    (held : Bool) :
    Act σ Bool :=
  if held then awaitDecision world creator key
  else do
    timeOut world base statuses task
    pure true

/-- A wait for a task that is known, written out: the report, the timeout, the wait, and what
follows from it. -/
theorem awaitKnown_eq (world : World σ) (base : Base) (statuses step config creator task : Json) :
    awaitKnown world base statuses step config creator task = (do
      report world base [("current_step_id", step)]
      let days ← lift ((config.field "timeoutDays").orElse (.int 1)).wholeOf
      let days ← lift (durationDays (max days 1))
      let key ← lift task.key
      endWait world base statuses creator task key
        (← await world (days * 86400) (·.hasCompleted key))) := rfl

/-- A wait finds its task in the variables, under the step that created it. -/
theorem outcome_awaitTask (world : World σ) (base : Base) (statuses step : Json)
    {config creator : Json}
    (hcreator : config.fieldOf "taskStepId" = .ok creator) (s : RunState σ) :
    outcome (awaitTask world base statuses step config) s =
      if (s.vars.value (taskPath creator "taskId")).truthy then
        outcome (awaitKnown world base statuses step config creator
          (s.vars.value (taskPath creator "taskId"))) s
      else (.error (orphaned step creator), s) := by
  rw [awaitTask, outcome_lift_bind hcreator, outcome_get_bind]
  dsimp only
  cases hknown : (s.vars.value (taskPath creator "taskId")).truthy with
  | true => rfl
  | false => rfl

/-- What is known about a decision, by the names of its variables. -/
def decisionNames : List String := ["outcome", "comment", "approvedBy"]

/-- The names of what is rendered of a task. -/
def renderedNames : List String := ["title", "links", "description"]

/-- A task as a step describes it, its texts rendered with some variables. -/
structure Renders (config : Json) (task : Fields) : Prop where
  title : ∃ vars, task.value "title" =
    .text (Template.render ((config.field "title").text?.getD "") vars)
  other : ∀ name, name ∉ renderedNames → task.value name = config.field name

-- ============================================================================
-- Acts
-- ============================================================================

/-- To render something keeps every invariant. -/
theorem Keeps.rendered {inv : RunState σ → Prop} {bad : Failure → RunState σ → Prop} (j : Json) :
    Keeps (rendered j) inv bad :=
  .bind .get fun _ => .pure _

/-- Rendering the texts of a task leaves everything as it is. -/
theorem Keeps.renderedTask {inv : RunState σ → Prop} {bad : Failure → RunState σ → Prop}
    (hfault : ∀ f s, inv s → bad (.fault f) s) (config : Json) :
    Keeps (renderedTask config) inv bad := by
  unfold Run.renderedTask
  dsimp only
  split
  · refine .bind (.pure _) fun fields => .bind (.rendered _) fun title =>
      .bind (.lift hfault _) fun items =>
        .bind (.mapM (fun link => .rendered link) items) fun links => ?_
    split
    · exact .bind (.rendered _) fun _ => .pure _
    · exact .pure _
  · exact Ensures.throw_bind fun s hs => hfault _ s hs

/-- A task that was rendered is its config with some texts rendered. -/
theorem renders_of_renderedTask {config : Json} {s s' : RunState σ} {task : Fields}
    (h : outcome (renderedTask config) s = (.ok task, s')) : Renders config task := by
  unfold Run.renderedTask at h
  cases config with
  | object given =>
    obtain ⟨fields, _, hfields, h⟩ := outcome_bind_eq_ok_iff.1 h
    cases hfields
    obtain ⟨title, _, htitle, h⟩ := outcome_bind_eq_ok_iff.1 h
    cases htitle
    obtain ⟨items, -, h⟩ := outcome_lift_bind_eq_ok_iff.1 h
    obtain ⟨links, _, -, h⟩ := outcome_bind_eq_ok_iff.1 h
    -- With a description, which is rendered, and without one.
    split at h
    · obtain ⟨description, _, -, h⟩ := outcome_bind_eq_ok_iff.1 h
      cases h
      refine ⟨⟨s.vars, by simp [Entries.value, Json.field]⟩, fun name hname => ?_⟩
      simp only [renderedNames, List.mem_cons, List.not_mem_nil, or_false, not_or] at hname
      simp [Entries.value, Json.field, hname]
    · cases h
      refine ⟨⟨s.vars, by simp [Entries.value, Json.field]⟩, fun name hname => ?_⟩
      simp only [renderedNames, List.mem_cons, List.not_mem_nil, or_false, not_or] at hname
      simp [Entries.value, Json.field, hname]
  | _ => cases h

namespace Enduring

variable {world : World σ} {base : Base} {reports creates : Fields → Prop} {puts : String → Prop}
  {inv ended : RunState σ → Prop} {bad : Failure → RunState σ → Prop}

/-- It does not matter if failures leave less. -/
theorem mono (h : Enduring world reports creates puts inv bad) {bad' : Failure → RunState σ → Prop}
    (hbad : ∀ f s, bad f s → bad' f s) : Enduring world reports creates puts inv bad' := by
  have hkeeps : ∀ {β : Type} {act : Act σ β}, Keeps act inv bad → Keeps act inv bad' := by
    intro β act hact
    exact Ensures.mono hact (fun s hs => hs) fun result s hs => hs.mono hbad
  exact ⟨h.steady, h.put, fun ha hb => hkeeps (h.work ha hb), fun hc => hkeeps (h.create hc),
    fun hr => hkeeps (h.report hr), hkeeps h.await, fun f s hs => hbad _ s (h.fault f s hs)⟩

section Acts

variable (h : Enduring world reports creates puts inv bad)

include h

theorem lift (result : Except Fault α) : Keeps (lift result : Act σ α) inv bad :=
  .lift h.fault result

theorem setVariable {path : String} (hpath : puts path) (value : Json) :
    Keeps (setVariable path value) inv bad :=
  .modify fun s hs => h.put s path value hpath hs

/-- The creation of a task keeps what its call and its variable keep. -/
theorem createTask {contact config step : Json} (hpath : puts (taskPath step "taskId"))
    (hcreate : ∀ task, Renders config task → creates (base.params [
      ("contact_id", contact), ("step_id", step), ("config", .object task)])) :
    Keeps (createTask world base contact step config) inv bad := by
  refine .after_knowing (.renderedTask h.fault config) (Renders config)
    (fun _ _ _ => renders_of_renderedTask) (fun task htask => ?_) fun _ _ hs => hs
  exact Keeps.bind (h.create (hcreate task htask)) fun _ => .bind (h.lift _) fun _ =>
    .bind (h.setVariable hpath _) fun _ => .bind (h.lift _) fun _ =>
      .modify fun s hs => h.steady s _ rfl rfl rfl rfl hs

theorem sendMail (config : Json) : Keeps (sendMail world base config) inv bad :=
  .bind (h.lift _) fun _ => .bind (.rendered _) fun _ => .bind (.rendered _) fun _ =>
    .bind (.rendered _) fun _ => .bind (.rendered _) fun _ =>
      .discard (h.work (by decide) (by decide))

theorem notify (config : Json) : Keeps (notify world base config) inv bad :=
  .bind (h.lift _) fun _ => .bind .get fun _ => .bind (h.lift _) fun _ =>
    .bind (.rendered _) fun _ =>
    .bind (.rendered _) fun _ => .discard (h.work (by decide) (by decide))

/-- A decision that is taken keeps what its variables keep. -/
theorem takeDecision {creator : Json}
    (hpaths : ∀ name ∈ decisionNames, puts (taskPath creator name)) (approval : Fields) :
    Keeps (takeDecision creator approval) inv bad := by
  simp only [decisionNames, List.forall_mem_cons, List.not_mem_nil, false_implies,
    implies_true, and_true] at hpaths
  obtain ⟨houtcome, hcomment, happroved⟩ := hpaths
  exact .bind (h.setVariable houtcome _) fun _ => .bind (h.setVariable hcomment _) fun _ =>
    h.setVariable happroved _

/-- A report keeps what its parameters are allowed to change. -/
theorem tell {changes : List (String × Json)} (hreport : reports (base.params changes)) :
    Keeps (Run.report world base changes) inv bad :=
  .discard (h.report hreport)

-- ============================================================================
-- Steps
-- ============================================================================

/-- To settle a decision keeps what its variables keep, and goes on. -/
theorem settle {creator : Json}
    (hpaths : ∀ name ∈ decisionNames, puts (taskPath creator name)) (key : Key) :
    Ensures (settle creator key) inv (Stepped inv ended bad) := by
  refine .step .get fun s => ?_
  dsimp only
  split
  · split
    · exact .goOn
    · exact .step (h.takeDecision hpaths _) fun _ => .goOn
  · exact .goOn

/-- Waiting for a known task ends the run if it takes too long. -/
theorem awaitKnown {statuses step config creator : Json}
    (hreport : reports (base.params [("current_step_id", step)]))
    (hpaths : ∀ name ∈ decisionNames, puts (taskPath creator name))
    (htimeOut : ∀ task, Ensures (timeOut world base statuses task) inv (Left ended bad))
    (task : Json) :
    Ensures (awaitKnown world base statuses step config creator task) inv
      (Stepped inv ended bad) := by
  refine .step (h.tell hreport) fun _ => .step (h.lift _) fun _ => .step (h.lift _) fun days =>
    .step (h.lift _) fun key => .step h.await fun held => ?_
  cases held with
  | false => exact .bind (htimeOut _) (fun _ _ hs => hs) fun _ _ hs => hs
  | true =>
    refine .step .get fun s => ?_
    dsimp only
    split
    · exact .step (.discard h.await) fun _ => h.settle hpaths key
    · exact h.settle hpaths key

/-- Waiting for a task fails if the task has not been created. -/
theorem awaitTask {statuses step config : Json}
    (hreport : reports (base.params [("current_step_id", step)]))
    (hpaths : ∀ creator, config.fieldOf "taskStepId" = .ok creator →
      ∀ name ∈ decisionNames, puts (taskPath creator name))
    (horphaned : ∀ creator, config.fieldOf "taskStepId" = .ok creator → ∀ s, inv s →
      (s.vars.value (taskPath creator "taskId")).truthy = false → bad (orphaned step creator) s)
    (htimeOut : ∀ task, Ensures (timeOut world base statuses task) inv (Left ended bad)) :
    Ensures (awaitTask world base statuses step config) inv (Stepped inv ended bad) := by
  intro s hs
  cases hcreator : config.fieldOf "taskStepId" with
  | error f =>
    rw [Run.awaitTask, hcreator]
    exact h.fault f s hs
  | ok creator =>
    rw [outcome_awaitTask world base statuses step hcreator]
    cases hknown : (s.vars.value (taskPath creator "taskId")).truthy with
    | true => exact h.awaitKnown hreport (hpaths creator hcreator) htimeOut _ s hs
    | false => exact horphaned creator hcreator s hs hknown

/-- A step keeps what the kind of step that it is keeps. -/
theorem execute (contact statuses : Json) {step : Json}
    (hput : step.fieldOf "type" = .ok (.text "assign_task") →
      puts (taskPath (step.field "id") "taskId"))
    (hcreate : step.fieldOf "type" = .ok (.text "assign_task") → ∀ task,
      Renders ((step.field "config").orElse (.obj [])) task → creates (base.params [
        ("contact_id", contact), ("step_id", step.field "id"), ("config", .object task)]))
    (hset : step.fieldOf "type" = .ok (.text "update_status") → ∀ status,
      ((step.field "config").orElse (.obj [])).fieldOf "status" = .ok status →
        reports (base.params [("status", status), ("current_step_id", step.field "id")]))
    (hwait : step.fieldOf "type" = .ok (.text "wait_for_task") →
      Ensures (Run.awaitTask world base statuses (step.field "id")
        ((step.field "config").orElse (.obj []))) inv (Stepped inv ended bad)) :
    Ensures (execute world base contact statuses step) inv (Stepped inv ended bad) := by
  rw [Run.execute]
  refine .lift_bind (fun kind hkind => ?_) h.fault
  dsimp only
  split
  · exact .step (h.createTask (hput hkind) (hcreate hkind)) fun _ => .goOn
  · exact hwait hkind
  · exact .lift_bind (fun status hstatus =>
      .step (h.tell (hset hkind status hstatus)) fun _ => .goOn)
      h.fault
  · exact .step (h.sendMail _) fun _ => .goOn
  · exact .step (h.notify _) fun _ => .goOn
  · exact .goOn

end Acts

end Enduring

/-- It does not matter if failures leave less. -/
theorem Lasting.mono {world : World σ} {reports creates : Fields → Prop} {puts : String → Prop}
    {inv : RunState σ → Prop} {bad : Failure → RunState σ → Prop}
    (h : Lasting world reports creates puts inv bad) {bad' : Failure → RunState σ → Prop}
    (hbad : ∀ f s, bad f s → bad' f s) : Lasting world reports creates puts inv bad' :=
  ⟨h.toEnduring.mono hbad, h.enter⟩

-- ============================================================================
-- The interpreter
-- ============================================================================

/-- How a step leaves a run at the place that it leads to. -/
def Passed (step : Json) (index : Nat) (table : Table Nat) (inv : Nat → RunState σ → Prop)
    (ended : RunState σ → Prop) (bad : Failure → RunState σ → Prop) :
    Except Failure Bool → RunState σ → Prop
  | .ok false, s =>
    match Walk.next step index table s.vars with
    | .ok following => inv following s
    | .error f => bad (.fault f) s
  | .ok true, s => ended s
  | .error f, s => bad f s

/-- What a step leaves may be said less of after a failure. -/
theorem Stepped.mono {inv ended : RunState σ → Prop} {bad bad' : Failure → RunState σ → Prop}
    (hbad : ∀ f s, bad f s → bad' f s) {result : Except Failure Bool} {s : RunState σ}
    (h : Stepped inv ended bad result s) : Stepped inv ended bad' result s := by
  match result with
  | .error f => exact hbad f s h
  | .ok true => exact h
  | .ok false => exact h

/-- A step that keeps an invariant wherever it goes passes it on to the next place. -/
theorem Stepped.passed {inv ended : RunState σ → Prop} {bad : Failure → RunState σ → Prop}
    (hfault : ∀ f s, inv s → bad (.fault f) s) {step : Json} {index : Nat} {table : Table Nat}
    {result : Except Failure Bool} {s : RunState σ} (h : Stepped inv ended bad result s) :
    Passed step index table (fun _ => inv) ended bad result s := by
  match result with
  | .error f => exact h
  | .ok true => exact h
  | .ok false =>
    show match Walk.next step index table s.vars with
      | .ok _ => inv s
      | .error f => bad (.fault f) s
    split
    · exact h
    · exact hfault _ s h

section Interpreter

variable {world : World σ} {base : Base} {contact statuses : Json} {steps : List Json}
  {table : Table Nat} {ended : RunState σ → Prop} {bad : Failure → RunState σ → Prop}

/-- Behind a step a run has ended, or it goes on at the place that the step leads to. -/
theorem outcome_interpret_succ {left index : Nat} {step id : Json}
    (hsome : steps[index]? = some step)
    (hid : step.requiredField "id" = .ok id) (s : RunState σ) :
    outcome (interpret world base contact statuses steps table (left + 1) index) s =
      match outcome (execute world base contact statuses step) (entering id s) with
      | (.ok true, s') => (.ok true, s')
      | (.ok false, s') =>
        match Walk.next step index table s'.vars with
        | .ok following =>
          outcome (interpret world base contact statuses steps table left following) s'
        | .error f => (.error (.fault f), s')
      | (.error f, s') => (.error f, s') := by
  rw [Run.interpret, hsome]
  dsimp only
  rw [outcome_lift_bind hid, outcome_bind, outcome_modify]
  show outcome _ (entering id s) = _
  rw [outcome_bind]
  rcases outcome (execute world base contact statuses step) (entering id s) with ⟨result, s'⟩
  match result with
  | .error f => rfl
  | .ok true => rfl
  | .ok false =>
    dsimp only
    rw [if_neg Bool.false_ne_true, outcome_get_bind, outcome_bind, outcome_lift]
    cases Walk.next step index table s'.vars <;> rfl

/-- An invariant that says for every place how a run comes there is kept by the whole run, if every
step keeps it on the way to the place that the step leads to. -/
theorem Ensures.interpret {inv : Nat → RunState σ → Prop}
    (hstep : ∀ index step id, steps[index]? = some step → step.requiredField "id" = .ok id →
      ∀ s, inv index s → Passed step index table inv ended bad
        (outcome (execute world base contact statuses step) (entering id s)).1
        (outcome (execute world base contact statuses step) (entering id s)).2)
    (hfault : ∀ index f s, inv index s → bad (.fault f) s)
    (hexceeded : ∀ index s, inv index s → bad exceeded s) (left index : Nat) :
    Ensures (interpret world base contact statuses steps table left index) (inv index)
      (Stepped (fun s => ∃ stop, inv stop s) ended bad) := by
  induction left generalizing index with
  -- No step is left: the run is past the last one, or fails by the limit.
  | zero =>
    rw [Run.interpret]
    split
    · exact fun s hs => ⟨index, hs⟩
    · exact .throw (hexceeded index)
  -- One step, and then the rest from where it leads.
  | succ left ih =>
    intro s hs
    cases hsome : steps[index]? with
    | none =>
      rw [Run.interpret, hsome]
      exact ⟨index, hs⟩
    | some step =>
      cases hid : step.requiredField "id" with
      | error f =>
        rw [Run.interpret, hsome]
        dsimp only
        rw [hid]
        exact hfault index f s hs
      | ok id =>
        have hpassed := hstep index step id hsome hid s hs
        rw [outcome_interpret_succ hsome hid]
        rcases hexecute : outcome (execute world base contact statuses step) (entering id s) with
          ⟨result, s'⟩
        rw [hexecute] at hpassed
        match result with
        | .error f => exact hpassed
        | .ok true => exact hpassed
        | .ok false =>
          simp only [Passed] at hpassed
          dsimp only
          cases hnext : Walk.next step index table s'.vars with
          | error f =>
            rw [hnext] at hpassed
            exact hpassed
          | ok following =>
            rw [hnext] at hpassed
            exact ih following s' hpassed

/-- The loop keeps what every single step keeps. -/
theorem Lasting.interpret {reports creates : Fields → Prop} {puts : String → Prop}
    {inv : RunState σ → Prop}
    (h : Lasting world reports creates puts inv bad) (hexceeded : ∀ s, inv s → bad exceeded s)
    (hsteps : ∀ step ∈ steps, Ensures (Run.execute world base contact statuses step) inv
      (Stepped inv ended bad)) (left index : Nat) :
    Ensures (Run.interpret world base contact statuses steps table left index) inv
      (Stepped inv ended bad) := by
  have hinterpret : Ensures (Run.interpret world base contact statuses steps table left index) inv
      (Stepped (fun s => ∃ _ : Nat, inv s) ended bad) := by
    refine .interpret (fun index step id hsome _ s hs => ?_) (fun _ => h.fault) (fun _ => hexceeded)
      left index
    exact Stepped.passed h.fault (hsteps step (List.mem_of_getElem? hsome) (entering id s)
      (h.enter id s hs))
  refine hinterpret.mono (fun s hs => hs) fun result s hs => ?_
  match result with
  | .error f => exact hs
  | .ok true => exact hs
  | .ok false => exact hs.choose_spec

end Interpreter
end Casework.Run
