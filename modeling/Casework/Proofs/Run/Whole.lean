/-
  Casework.Proofs.Run.Whole

  What whole runs keep. Around its steps a run does little: it puts its first variables, and it
  reports how it ended. A lasting invariant that survives this too is kept by the run, and a run
  fails only in the ways in which its steps do, or because of a fault or of work that failed.
-/
import Casework.Proofs.Result
import Casework.Proofs.Run.Step

namespace Casework.Run

variable {σ : Type}

-- ============================================================================
-- Reports of the end
-- ============================================================================

/-- What a run reports of its end. -/
def endOf (status : Option String) (phase : RunPhase) (details : Option Json) :
    List (String × Json) :=
  [("status", .optText status), ("execution_state", .text phase.word), ("completed", .bool true)] ++
    details.toList.map ("details", ·)

/-- The ends of a run may be reported, each with the status of a name that can be used. -/
def EndsWith (reports : Fields → Prop) (base : Base) (statuses : Json) : Prop :=
  ∀ name status, systemStatus name statuses = .ok status →
    ∀ phase details, reports (base.params (endOf status phase details))

/-- What the activities of a run are told, found in what the run is given. -/
def Base.given (params : Fields) : Base :=
  ⟨params.value "workflow_execution_id", params.value "org_id"⟩

/-- What is needed before the first step has been found in what a run is given. -/
structure Setup.Prepares (s : Setup) (params : Fields) : Prop where
  steps : (params.value "steps").givenItemsOf = .ok s.steps
  table : Walk.gotoTable s.steps = .ok s.table
  statuses : s.statuses = params.value "statuses"
  base : s.base = .given params

/-- Carries out a program that is ready; a failure is reported before the run fails with it. -/
def carryOut (world : World σ) (s : Setup) : Act σ Json :=
  tryCatch (body world s) fun failure => do
    reportFailure world s.base s.statuses failure
    throw failure

/-- Behind its setup a run carries out the program. -/
theorem outcome_run {world : World σ} {params : Fields} {s : Setup} {begun started : RunState σ}
    (h : outcome (setup params) begun = (.ok s, started)) :
    outcome (run world params) begun = outcome (carryOut world s) started := by
  rw [run, outcome_bind, h]
  rfl

namespace Enduring

variable {world : World σ} {base : Base} {statuses : Json} {reports creates : Fields → Prop}
  {puts : String → Prop} {inv : RunState σ → Prop}

section Ends

variable {bad : Failure → RunState σ → Prop} (h : Enduring world reports creates puts inv bad)
  (hends : EndsWith reports base statuses)

include h hends

/-- What ends a run sets the phase and reports a status. -/
theorem conclude (name : String) (phase : RunPhase) (details : Option Json) :
    Keeps (do
      modify fun s => { s with phase }
      let status ← Run.lift (systemStatus name statuses)
      Run.report world base (endOf status phase details)) inv bad :=
  .bind (.modify fun s hs => h.steady s _ rfl rfl rfl rfl hs) fun _ =>
    .lift_bind (fun status hstatus => h.tell (hends name status hstatus phase details)) h.fault

theorem timeOut (task : Json) : Keeps (timeOut world base statuses task) inv bad :=
  h.conclude hends "timeout" .timeout (some (.obj [("timedOutTaskId", task)]))

theorem complete : Keeps (complete world base statuses) inv bad :=
  h.conclude hends "completed" .completed none

theorem reportFailure (failure : Failure) :
    Keeps (reportFailure world base statuses failure) inv bad := by
  refine .bind (.modify fun s hs => h.steady s _ rfl rfl rfl rfl hs) fun _ =>
    .lift_bind (fun status hstatus => Keeps.bind .get fun s => h.tell ?_) h.fault
  exact hends "failed" status hstatus .error
    (some (.obj [("error", .text failure.message), ("failedStepId", s.step)]))

end Ends

-- ============================================================================
-- Runs
-- ============================================================================

section Bodies

variable {bad : Failure → RunState σ → Prop} (h : Enduring world reports creates puts inv bad)

include h

theorem present : Keeps present inv bad :=
  .bind .get fun _ => h.lift _

/-- The body of a run leaves the invariant if its steps do and its end may be reported. -/
theorem body {s : Setup} {pre : RunState σ → Prop} (hends : EndsWith reports s.base s.statuses)
    (hsteps : Ensures (Run.interpret world s.base s.contact s.statuses s.steps s.table stepLimit 0)
      pre
      (Stepped inv inv bad)) : Ensures (Run.body world s) pre (Left inv bad) := by
  refine Ensures.bind hsteps (fun ended => ?_) fun _ _ hs => hs
  cases ended with
  | true => exact h.present
  | false => exact Keeps.bind (h.complete hends) fun _ => h.present

end Bodies

section Runs

variable {fails : Failure → Prop} {params : Fields}
  (h : Enduring world reports creates puts inv fun f s => fails f ∧ inv s)

include h

/-- A run that has been set up is prepared by what it is given. -/
theorem setup (hvars : ∀ s vars, inv s → inv { s with vars }) :
    Ensures (setup params) inv fun result s => match result with
      | .ok setup => setup.Prepares params ∧ inv s
      | .error f => fails f ∧ inv s := by
  rw [Run.setup]
  refine .lift_bind (fun execution hexecution =>
    .lift_bind (fun org horg => .lift_bind (fun contact _ =>
    .lift_bind (fun vars _ => ?_) h.fault) h.fault) h.fault) h.fault
  have hput : Keeps (modify fun s => { s with vars } : Act σ PUnit) inv fun f s =>
      fails f ∧ inv s :=
    .modify fun s hs => hvars s vars hs
  refine .after hput (fun _ => .lift_bind (fun steps hsteps => .lift_bind (fun table htable => ?_)
    h.fault) h.fault) fun _ _ hs => hs
  refine fun s hs => ⟨⟨hsteps, htable, rfl, ?_⟩, hs⟩
  rw [Base.given, ← Json.value_of_requiredField hexecution, ← Json.value_of_requiredField horg]

/-- A run that has been set up leaves the invariant if its steps do and its ends may be reported. -/
theorem carriedOut {s : Setup} {pre : RunState σ → Prop}
    (hends : EndsWith reports s.base s.statuses)
    (hsteps : Ensures (Run.interpret world s.base s.contact s.statuses s.steps s.table stepLimit 0)
      pre
      (Stepped inv inv fun f s => fails f ∧ inv s)) :
    Ensures (Run.carryOut world s) pre (Left inv fun f s => fails f ∧ inv s) := by
  have hbody := h.body hends hsteps
  refine Ensures.tryCatch hbody (fun _ _ hs => hs) fun failure s' hs => ?_
  have hreport := h.reportFailure hends failure s' hs.2
  rw [outcome_bind]
  rcases hreported : outcome (Run.reportFailure world s.base s.statuses failure) s' with
    ⟨result, reported⟩
  rw [hreported] at hreport
  cases result with
  | ok _ => exact ⟨hs.1, hreport⟩
  | error f => exact hreport

/-- A run keeps the invariant if its steps do and its ends may be reported. -/
theorem run (hvars : ∀ s vars, inv s → inv { s with vars })
    (hends : ∀ s : Setup, s.Prepares params → EndsWith reports s.base s.statuses)
    (hsteps : ∀ s : Setup, s.Prepares params →
      Ensures (Run.interpret world s.base s.contact s.statuses s.steps s.table stepLimit 0) inv
        (Stepped inv inv fun f s => fails f ∧ inv s)) :
    Keeps (run world params) inv fun f s => fails f ∧ inv s := by
  refine Ensures.bind (h.setup hvars) (fun setup => ?_) fun _ _ hs => hs
  intro s hs
  obtain ⟨hprepares, hinv⟩ := hs
  exact h.carriedOut (hends setup hprepares) (hsteps setup hprepares) s hinv

end Runs
end Enduring
end Casework.Run
