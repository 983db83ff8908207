/-
  Casework.Proofs.Run.Together

  Two runs that go together. The one act that reads decisions comes behind waits that have made sure
  of them: by then either both runs know the decision about the task or there is none. For this a
  run has to be aware that the task is to be decided, or it does not wait for the decision. So two
  runs that are alike at the beginning make the same steps and end alike, if the first one is aware
  of decisions wherever it comes to a wait. At the end the completed tasks are put in order, which
  can fail; then it has to fail in both.
-/
import Casework.Proofs.Run.Coupling
import Casework.Proofs.Run.Wait

namespace Casework

variable {τ : Type}

namespace Run

open RunState

variable {signals : List Signal} {work : Call → τ → Except Failure Json × τ}

-- ============================================================================
-- Waiting for tasks
-- ============================================================================

/-- A run knows that a task is to be decided. -/
def KnowsApproval {σ : Type} (s : RunState σ) (key : Key) : Prop :=
  ((s.taskKinds.get? key).getD .null).isTextOf "approval"

instance {σ : Type} (s : RunState σ) (key : Key) : Decidable (KnowsApproval s key) :=
  inferInstanceAs (Decidable (_ = true))

/-- There is a decision about a task. -/
def Decided (signals : List Signal) (key : Key) : Prop :=
  ∃ m ∈ signals, ∃ fields, m.Decides key fields

section Waiting

variable {base : Base} {s s' : RunState (Batched τ)} {key : Key}

/-- Two runs that know the same about a task take over the same. -/
theorem coupledAt_settle (creator : Json) (hs : Alike signals s s')
    (hsame : s.inbox.approval? key = s'.inbox.approval? key) :
    CoupledAt signals (settle creator key) s s' := by
  unfold settle
  rw [CoupledAt, outcome_get_bind, outcome_get_bind, hsame]
  dsimp only
  split
  · split
    · exact (Coupled.pure false).agrees hs
    · exact (Coupled.bind (.takeDecision creator _) fun _ => .pure false).agrees hs
  · exact (Coupled.pure false).agrees hs

/-- To settle a decision adds nothing to the history. -/
theorem grows_settle {σ : Type} (creator : Json) (key : Key) :
    Grows (settle creator key : Act σ Bool) := by
  have hput : ∀ path value, Grows (setVariable path value : Act σ Unit) :=
    fun _ _ _ => List.prefix_refl _
  refine .bind (.of_outcome outcome_get) fun s => ?_
  dsimp only
  split
  · split
    · exact .of_outcome fun _ => rfl
    · exact .bind (.bind (hput _ _) fun _ => .bind (hput _ _) fun _ => hput _ _) fun _ =>
        .of_outcome fun _ => rfl
  · exact .of_outcome fun _ => rfl

/-- To wait for a decision adds the wait to the history, if there is one. -/
theorem grows_awaitDecision {σ : Type} (world : World σ) (creator : Json) (key : Key) :
    Grows (awaitDecision world creator key) := by
  refine .bind (.of_outcome outcome_get) fun s => ?_
  dsimp only
  split
  · refine .bind (fun t => ?_) fun _ => grows_settle creator key
    rw [outcome_discard]
    exact grows_await world _ _ t
  · exact grows_settle creator key

/-- Behind the wait for a task that is to be decided, a run takes over the decision that it knows
then. -/
theorem exists_awaitDecision (hplain : Signal.Plain signals) (creator : Json) (hs : Told signals s)
    (hontime : (outcome (awaitDecision (World.inBatches work) creator key) s).2.OnTime) :
    ∃ t, Alike signals s t ∧
      outcome (awaitDecision (World.inBatches work) creator key) s =
        outcome (settle creator key) t ∧
      (KnowsApproval s key → (t.inbox.approval? key).isSome) := by
  rw [awaitDecision, outcome_get_bind] at hontime ⊢
  dsimp only at hontime ⊢
  split
  -- The decision is known to come and not here yet: the grace wait, which ends with the decision if
  -- all is on time.
  case isTrue hcond =>
    rw [if_pos hcond, outcome_bind, outcome_discard] at hontime
    rw [outcome_bind, outcome_discard]
    have halike := alike_await work hplain hs graceSeconds fun inbox => (inbox.approval? key).isSome
    have hawait := await_onTime work hplain hs graceSeconds fun inbox =>
      (inbox.approval? key).isSome
    rcases houtcome : outcome (await (World.inBatches work) graceSeconds
      fun inbox => (inbox.approval? key).isSome) s with ⟨result, t⟩
    rw [houtcome] at hontime halike hawait
    -- The wait itself was on time, since what comes behind it only adds to the history.
    have ht : t.OnTime := by
      cases result with
      | ok held => exact hontime.of_prefix (grows_settle creator key t)
      | error f => exact hontime
    obtain ⟨hheld, hknown⟩ := hawait ht
    cases hheld
    exact ⟨t, halike, rfl, fun _ => hknown⟩
  -- Either no decision is expected, or it is here already.
  case isFalse hcond =>
    refine ⟨s, ⟨rfl, hs, hs⟩, rfl, fun hknows => ?_⟩
    rw [KnowsApproval] at hknows
    rw [hknows, Bool.true_and, Option.isNone_iff_eq_none] at hcond
    exact Option.isSome_iff_ne_none.2 hcond

/-- Two runs that know that a task is to be decided, if it is, take over the same decision. -/
theorem coupledAt_awaitDecision (hplain : Signal.Plain signals) (creator : Json)
    (hs : Alike signals s s')
    (hknows : Decided signals key → KnowsApproval s key) :
    CoupledAt signals (awaitDecision (World.inBatches work) creator key) s s' := by
  intro hontime hontime'
  obtain ⟨t, ht, houtcome, hknown⟩ := exists_awaitDecision hplain creator hs.left hontime
  obtain ⟨t', ht', houtcome', hknown'⟩ := exists_awaitDecision hplain creator hs.right hontime'
  have halike := ht.symm.trans (hs.trans ht')
  -- Both runs have the same decision at hand when they settle: the one that the signals have for
  -- the task, or none.
  have hsame : t.inbox.approval? key = t'.inbox.approval? key := by
    by_cases hknow : KnowsApproval s key
    case pos =>
      refine ht.right.decisions.approval?_eq hplain ht'.right.decisions (hknown hknow) (hknown' ?_)
      rwa [KnowsApproval, ← hs.taskKinds]
    -- A decision that no signal brings is in neither inbox.
    case neg =>
      have hnone : ∀ inbox : Inbox, inbox.Drawn signals → inbox.approval? key = none := by
        intro inbox hdrawn
        by_contra hne
        obtain ⟨fields, hfields⟩ := Option.ne_none_iff_exists'.1 hne
        obtain ⟨m, hm, hdecides⟩ := hdrawn.decides hfields
        exact hknow (hknows ⟨m, hm, fields, hdecides⟩)
      rw [hnone _ ht.right.decisions, hnone _ ht'.right.decisions]
  rw [houtcome] at hontime ⊢
  rw [houtcome'] at hontime' ⊢
  exact coupledAt_settle creator halike hsame hontime hontime'

/-- What follows a wait only adds to the history. -/
theorem grows_endWait (statuses creator task : Json) (key : Key) (held : Bool) :
    Grows (endWait (World.inBatches work) base statuses creator task key held) := by
  cases held with
  | true => exact grows_awaitDecision _ creator key
  | false =>
    have hlate : Coupled [] (do
        timeOut (World.inBatches work) base statuses task
        pure true) := .bind (.timeOut statuses task) fun _ => .pure true
    exact hlate.grows

/-- A report leaves the kinds of the tasks as they are. -/
theorem taskKinds_report (work : Call → τ → Except Failure Json × τ) (base : Base)
    (changes : List (String × Json)) (s : RunState (Batched τ)) :
    (outcome (report (World.inBatches work) base changes) s).2.taskKinds = s.taskKinds := by
  rw [report, outcome_discard, outcome_perform]
  dsimp only
  cases ((World.inBatches work).perform ⟨.setState, base.params changes⟩ s.outside).1 <;> rfl

/-- Two runs that wait for the same task end their waits in the same way. -/
theorem coupledAt_awaitKnown (hplain : Signal.Plain signals)
    (statuses step config creator task : Json)
    (hs : Alike signals s s')
    (hknows : ∀ key, task.key = .ok key → Decided signals key → KnowsApproval s key) :
    CoupledAt signals (awaitKnown (World.inBatches work) base statuses step config creator task)
      s s' := by
  rw [awaitKnown_eq]
  have hgrows : ∀ key held,
      Grows (endWait (World.inBatches work) base statuses creator task key held) :=
    grows_endWait statuses creator task
  have hlift : ∀ {α : Type} (x : Except Fault α), Grows (lift x : Act (Batched τ) α) :=
    fun x => .of_outcome (outcome_lift x)
  -- The report, the timeout and the key are the same in both runs, and so is whether the task was
  -- completed.
  refine ((Coupled.report _).agrees hs).bind
    (fun _ => (hlift _).bind fun _ => (hlift _).bind fun _ =>
    (hlift _).bind fun key => (grows_await _ _ _).bind (hgrows key)) fun _ t t' hreport _ ht => ?_
  -- The kinds of the tasks are those from before, so the decision is known to be expected as it
  -- was.
  have hkinds : t.taskKinds = s.taskKinds := by
    rw [← taskKinds_report work base _ s, hreport]
  refine .lift_bind ht fun days _ => .lift_bind ht fun seconds _ => .lift_bind ht fun key hkey => ?_
  refine ((Coupled.await hplain _ _).agrees ht).bind (hgrows key) fun held u u' hawait _ hu => ?_
  -- The wait leaves the runs alike, though they may have waited differently.
  have hwaited : Alike signals t u := by
    have halike := alike_await work hplain ht.left (seconds * 86400) fun inbox =>
      inbox.hasCompleted key
    rwa [hawait] at halike
  cases held with
  | true =>
    refine coupledAt_awaitDecision hplain creator hu fun hdecided => ?_
    rw [KnowsApproval, ← hwaited.taskKinds, hkinds]
    exact hknows key hkey hdecided
  | false => exact (Coupled.bind (.timeOut statuses task) fun _ => .pure true).agrees hu

/-- Two runs that come to a wait find the same task. -/
theorem coupledAt_awaitTask (hplain : Signal.Plain signals) (statuses step : Json) {config : Json}
    (hs : Alike signals s s')
    (hknows : ∀ creator key, config.fieldOf "taskStepId" = .ok creator →
      (s.vars.value (taskPath creator "taskId")).key = .ok key → Decided signals key →
        KnowsApproval s key) :
    CoupledAt signals (awaitTask (World.inBatches work) base statuses step config) s s' := by
  cases hcreator : config.fieldOf "taskStepId" with
  | error f =>
    rw [awaitTask, hcreator]
    exact fun _ _ => ⟨rfl, hs⟩
  | ok creator =>
    rw [CoupledAt, outcome_awaitTask _ _ _ _ hcreator,
      outcome_awaitTask _ _ _ _ hcreator, ← hs.vars]
    split
    · exact coupledAt_awaitKnown hplain statuses step config creator _ hs fun key =>
        hknows creator key hcreator
    · exact fun _ _ => ⟨rfl, hs⟩

end Waiting

-- ============================================================================
-- Steps
-- ============================================================================

/-- A run that comes to a wait for a task about which there is a decision knows that the task is to
be decided. -/
def Setup.Aware {σ : Type} (signals : List Signal) (s : Setup) (place : Nat) (r : RunState σ) :
    Prop :=
  ∀ step creator key, s.steps[place]? = some step →
    step.fieldOf "type" = .ok (.text "wait_for_task") →
    ((step.field "config").orElse (.obj [])).fieldOf "taskStepId" = .ok creator →
    (r.vars.value (taskPath creator "taskId")).key = .ok key → Decided signals key →
      KnowsApproval r key

section Steps

variable {σ : Type} (world : World σ) (base : Base) (contact statuses : Json)

/-- A step adds to the history, whatever it does. -/
theorem grows_execute (begun : List Event) (step : Json) :
    Ensures (execute world base contact statuses step) (fun s => begun <+: s.history)
      (Stepped (fun s => begun <+: s.history) (fun s => begun <+: s.history)
        fun _ s => begun <+: s.history) := by
  have h := lasting_grows world begun
  exact h.execute contact statuses (fun _ => trivial) (fun _ _ _ => trivial)
    (fun _ _ _ => trivial) fun _ =>
    h.awaitTask trivial (fun _ _ _ _ => trivial) (fun _ _ _ hs _ => hs) fun task =>
      h.timeOut (fun _ _ _ _ _ => trivial) task

/-- The loop adds to the history. -/
theorem grows_interpret (steps : List Json) (table : Table Nat) (left index : Nat) :
    Grows (interpret world base contact statuses steps table left index) :=
  grows_of_stepped fun begun => (lasting_grows world begun).interpret (fun _ hs => hs)
    (fun step _ => grows_execute world base contact statuses begun step) left index

end Steps

section Interpreter

variable (hplain : Signal.Plain signals)

include hplain

/-- A step is coupled, if a wait among its kinds knows of the decision that the signals have. -/
theorem coupledAt_execute (base : Base) (contact statuses : Json) {step : Json}
    {s s' : RunState (Batched τ)} (hs : Alike signals s s')
    (hknows : step.fieldOf "type" = .ok (.text "wait_for_task") → ∀ creator key,
      ((step.field "config").orElse (.obj [])).fieldOf "taskStepId" = .ok creator →
      (s.vars.value (taskPath creator "taskId")).key = .ok key → Decided signals key →
        KnowsApproval s key) :
    CoupledAt signals (execute (World.inBatches work) base contact statuses step) s s' := by
  rw [execute]
  refine .lift_bind hs fun kind hkind => ?_
  dsimp only
  split
  · exact (Coupled.bind (.createTask _ _ _) fun _ => .pure false).agrees hs
  · exact coupledAt_awaitTask hplain statuses _ hs (hknows hkind)
  · exact (Coupled.bind (.lift _) fun _ => .bind (.report _) fun _ => .pure false).agrees hs
  · exact (Coupled.bind (.sendMail _) fun _ => .pure false).agrees hs
  · exact (Coupled.bind (.notify _) fun _ => .pure false).agrees hs
  · exact (Coupled.pure false).agrees hs

/-- Two runs at the same place go on in the same way, if the first one is aware of decisions
wherever it comes to. -/
theorem coupledAt_interpret {s : Setup} {begun : RunState (Batched τ)}
    (haware : ∀ place r, Comes (World.inBatches work) s begun place r → s.Aware signals place r)
    (left : Nat) {index : Nat} {r r' : RunState (Batched τ)}
    (hcomes : Comes (World.inBatches work) s begun index r) (hr : Alike signals r r') :
    CoupledAt signals
      (interpret (World.inBatches work) s.base s.contact s.statuses s.steps s.table left index) r
        r' := by
  -- By induction on the steps that are left: both runs take the same step, and go on alike to the
  -- same place.
  induction left generalizing index r r' with
  | zero =>
    rw [interpret]
    split
    · exact (Coupled.pure false).agrees hr
    · exact (Coupled.throw _).agrees hr
  | succ left ih =>
    rw [interpret]
    split
    case h_1 => exact (Coupled.pure false).agrees hr
    case h_2 step hsome =>
      -- The step is entered in both runs.
      refine .lift_bind hr fun id hid => ?_
      have henter : Coupled signals (modify fun s =>
        { s with step := id, stepsRun := s.stepsRun + 1 } :
          Act (Batched τ) PUnit) :=
        .of_modify (fun c => { c with step := id, stepsRun := c.stepsRun + 1 }) (fun _ => rfl)
          (fun _ => rfl) (fun _ => rfl) fun _ => rfl
      -- Whatever comes behind the step adds to the history.
      have hrest : ∀ ended, Grows (if ended = true then pure true else do
          let r ← get
          let following ← Run.lift (Walk.next step index s.table r.vars)
          interpret (World.inBatches work) s.base s.contact s.statuses s.steps s.table left
            following : Act (Batched τ) Bool) := by
        intro ended
        split
        · exact .of_outcome fun _ => rfl
        · exact .bind (.of_outcome outcome_get) fun _ => .bind (.of_outcome (outcome_lift _))
            fun following => grows_interpret _ _ _ _ _ _ left following
      refine (henter.agrees hr).bind (fun _ => .bind (fun t => ?_) hrest)
        fun _ t t' henters _ ht => ?_
      · exact grows_of_stepped (fun begun => grows_execute _ _ _ _ begun step) t
      -- The step itself is coupled, since the run has come here, and is aware of what it may wait
      -- for.
      · obtain ⟨-, rfl⟩ := Prod.mk.inj henters
        refine (coupledAt_execute hplain _ _ _ ht fun htype creator key =>
          haware index r hcomes step creator key hsome htype).bind hrest
            fun ended u u' hu _ hrest => ?_
        cases ended with
        | true => exact (Coupled.pure true).agrees hrest
        | false =>
          rw [if_neg Bool.false_ne_true, CoupledAt, outcome_get_bind,
            outcome_get_bind, ← hrest.vars]
          -- The next place is the same in both, as it depends on the variables only.
          exact CoupledAt.lift_bind hrest fun following hnext =>
            ih (hcomes.tail ⟨step, id, hsome, hid, hu, hnext⟩) hrest

end Interpreter

-- ============================================================================
-- Runs
-- ============================================================================

/-- Carries out the steps of a program, and completes the run if none of them has ended it. -/
def goThrough (world : World σ) (s : Setup) : Act σ Unit := do
  let ended ← interpret world s.base s.contact s.statuses s.steps s.table stepLimit 0
  if !ended then complete world s.base s.statuses

/-- Behind its steps a run shows what it knows, which fails if the completed tasks have no order. A
failure is reported. -/
theorem state_carryOut (world : World σ) (s : Setup) (r : RunState σ) :
    (outcome (carryOut world s) r).2 =
      match outcome (goThrough world s) r with
      | (.ok _, t) =>
        match t.inbox.completedInOrder with
        | .ok _ => t
        | .error fault => (outcome (reportFailure world s.base s.statuses (.fault fault)) t).2
      | (.error f, t) => (outcome (reportFailure world s.base s.statuses f) t).2 := by
  -- A failure is reported and thrown again; the state is that behind the report.
  have hreport : ∀ f t, (outcome (do
      reportFailure world s.base s.statuses f
      throw f : Act σ Json) t).2 = (outcome (reportFailure world s.base s.statuses f) t).2 := by
    intro f t
    rw [outcome_bind]
    rcases outcome (reportFailure world s.base s.statuses f) t with ⟨result, u⟩
    cases result <;> rfl
  -- The body goes through the steps, completes the run if they have not ended it, and shows it.
  have hbody : outcome (body world s) r = match outcome (goThrough world s) r with
      | (.ok _, t) => (Failure.ofFault t.toJson, t)
      | (.error f, t) => (.error f, t) := by
    have hpresent : ∀ t, outcome (present : Act σ Json) t = (Failure.ofFault t.toJson, t) := by
      intro t
      rw [present, outcome_get_bind, outcome_lift]
    rw [body, goThrough, outcome_bind, outcome_bind]
    rcases outcome (interpret world s.base s.contact s.statuses s.steps s.table stepLimit 0) r with
      ⟨result, t⟩
    cases result with
    | error f => rfl
    | ok ended =>
      cases ended with
      | true => exact hpresent t
      | false =>
        show outcome (complete world s.base s.statuses >>= fun _ => present) t =
          match outcome (complete world s.base s.statuses) t with
          | (.ok _, t) => (Failure.ofFault t.toJson, t)
          | (.error f, t) => (.error f, t)
        rw [outcome_bind]
        rcases outcome (complete world s.base s.statuses) t with ⟨result, u⟩
        cases result with
        | ok _ => exact hpresent u
        | error f => rfl
  rw [carryOut, outcome_tryCatch, hbody]
  rcases outcome (goThrough world s) r with ⟨result, t⟩
  cases result with
  | error f => exact hreport f t
  | ok _ =>
    -- To show a run fails only if its completed tasks cannot be put in order.
    dsimp only
    rw [RunState.toJson, Snapshot.toJson, snapshot]
    cases t.inbox.completedInOrder with
    | ok keys => rfl
    | error fault => exact hreport (.fault fault) t

/-- To carry out a run adds to the history. -/
theorem grows_carryOut (s : Setup) : Grows (carryOut (World.inBatches work) s) := by
  have hreport : ∀ f, Coupled [] (reportFailure (World.inBatches work) s.base s.statuses f) :=
    fun f => .reportFailure s.statuses f
  have hcomplete : Coupled [] (complete (World.inBatches work) s.base s.statuses) :=
    .complete s.statuses
  have hpresent : Grows (present : Act (Batched τ) Json) :=
    .bind (.of_outcome outcome_get) fun _ => .of_outcome (outcome_lift _)
  refine .tryCatch (.bind (grows_interpret _ _ _ _ _ _ _ _) fun ended => ?_)
    fun f => .bind (hreport f).grows fun _ => .of_outcome fun _ => rfl
  cases ended with
  | true => exact hpresent
  | false => exact .bind hcomplete.grows fun _ => hpresent

/-- The report of a failure leaves what has been told. -/
theorem inbox_reportFailure (base : Base) (statuses : Json) (failure : Failure)
    (s : RunState (Batched τ)) :
    (outcome (reportFailure (World.inBatches work) base statuses failure) s).2.inbox = s.inbox := by
  have hperform : ∀ params, Keeps (perform (World.inBatches work) .setState params)
      (fun t => t.inbox = s.inbox) fun _ t => t.inbox = s.inbox := by
    intro params t ht
    rw [outcome_perform]
    cases ((World.inBatches work).perform ⟨.setState, params⟩ t.outside).1 <;> exact ht
  have hkeeps : Keeps (reportFailure (World.inBatches work) base statuses failure)
      (fun t => t.inbox = s.inbox) fun _ t => t.inbox = s.inbox :=
    .bind (.modify fun _ ht => ht) fun _ => .bind (.lift (fun _ _ ht => ht) _) fun _ =>
      .bind .get fun _ => .discard (hperform _)
  have hafter := hkeeps s rfl
  rcases hreport : outcome (reportFailure (World.inBatches work) base statuses failure) s with
    ⟨result, t⟩
  rw [hreport] at hafter
  cases result <;> exact hafter

/-- The completed tasks have an order, or they are no arguments for it. -/
theorem completedInOrder_eq_error {inbox : Inbox} {fault : Fault}
    (h : inbox.completedInOrder = .error fault) : fault = .badArguments := by
  rw [Inbox.completedInOrder] at h
  split at h
  · cases h
  · split at h
    · cases h
    · cases h
      rfl

/-- Setting a run up depends on nothing that has been told. -/
theorem coupled_setup (params : Fields) : Coupled signals (setup params : Act (Batched τ) Setup) :=
  .bind (.lift _) fun _ => .bind (.lift _) fun _ => .bind (.lift _) fun _ =>
    .bind (.lift _) fun vars =>
    .bind (.of_modify (fun c => { c with vars }) (fun _ => rfl) (fun _ => rfl) (fun _ => rfl)
      fun _ => rfl) fun _ => .bind (.lift _) fun _ => .bind (.lift _) fun _ => .pure _

section Runs

variable (hplain : Signal.Plain signals)

include hplain

/-- Two runs that are set up alike end alike, if both can put the completed tasks in order at their
ends, or none can. -/
theorem core_carryOut {s : Setup} {r r' : RunState (Batched τ)} (hr : Alike signals r r')
    (haware : ∀ place t, Comes (World.inBatches work) s r place t → s.Aware signals place t)
    (hontime : (outcome (carryOut (World.inBatches work) s) r).2.OnTime)
    (hontime' : (outcome (carryOut (World.inBatches work) s) r').2.OnTime)
    (horder : (outcome (carryOut (World.inBatches work) s) r).2.inbox.Orderable ↔
      (outcome (carryOut (World.inBatches work) s) r').2.inbox.Orderable) :
    (outcome (carryOut (World.inBatches work) s) r).2.core =
      (outcome (carryOut (World.inBatches work) s) r').2.core := by
  -- What may come behind the steps is coupled: the completion, and the report of a failure.
  have hcomplete : ∀ ended, Coupled signals (if (!ended) = true then
      complete (World.inBatches work) s.base s.statuses else pure ()) := by
    intro ended
    cases ended with
    | true => exact .pure ()
    | false => exact .complete s.statuses
  have hreport : ∀ f, Coupled signals (reportFailure (World.inBatches work) s.base s.statuses f) :=
    fun f => .reportFailure s.statuses f
  -- So are the steps together with the completion.
  have hthrough : CoupledAt signals (goThrough (World.inBatches work) s) r r' :=
    (coupledAt_interpret hplain haware stepLimit .refl hr).bind
      (fun ended => (hcomplete ended).grows)
      fun ended _ _ _ _ => (hcomplete ended).agrees
  -- All was on time there, since a report afterwards only adds to the history.
  have hmid : ∀ u, (outcome (carryOut (World.inBatches work) s) u).2.OnTime →
      (outcome (goThrough (World.inBatches work) s) u).2.OnTime := by
    intro u hu
    rw [state_carryOut] at hu
    rcases hgo : outcome (goThrough (World.inBatches work) s) u with ⟨result, t⟩
    rw [hgo] at hu
    cases result with
    | error f => exact hu.of_prefix ((hreport f).grows t)
    | ok _ =>
      dsimp only at hu
      split at hu
      case h_1 => exact hu
      case h_2 fault _ => exact hu.of_prefix ((hreport (.fault fault)).grows t)
  -- Both runs come to the end of the steps alike, and with the same result.
  obtain ⟨hsame, ht⟩ := hthrough (hmid r hontime) (hmid r' hontime')
  rw [state_carryOut] at hontime hontime' horder ⊢
  rw [state_carryOut] at horder ⊢
  rcases hgo : outcome (goThrough (World.inBatches work) s) r with ⟨result, t⟩
  rcases hgo' : outcome (goThrough (World.inBatches work) s) r' with ⟨result', t'⟩
  rw [hgo] at hontime hsame ht horder
  rw [hgo'] at hontime' hsame ht horder
  obtain rfl : result = result' := hsame
  cases result with
  -- The steps fail, in both runs with the same failure, and it is reported.
  | error f => exact ((hreport f).agrees ht hontime hontime').2.core
  | ok _ =>
    -- The steps succeed. What is left is to show the run, which depends on whether its completed
    -- tasks can be put in order.
    dsimp only at hontime hontime' horder ⊢
    cases hkeys : t.inbox.completedInOrder with
    | ok keys =>
      cases hkeys' : t'.inbox.completedInOrder with
      | ok keys' => exact ht.core
      -- One run is shown, and the other cannot be: this was excluded, and the report does not touch
      -- the inbox.
      | error fault =>
        rw [hkeys, hkeys'] at horder
        dsimp only at horder
        rw [inbox_reportFailure] at horder
        obtain ⟨keys', hordered⟩ := horder.1 ⟨keys, hkeys⟩
        rw [hkeys'] at hordered
        cases hordered
    | error fault =>
      cases hkeys' : t'.inbox.completedInOrder with
      -- The same, the other way round.
      | ok keys' =>
        rw [hkeys, hkeys'] at horder
        dsimp only at horder
        rw [inbox_reportFailure] at horder
        obtain ⟨keys, hordered⟩ := horder.2 ⟨keys', hkeys'⟩
        rw [hkeys] at hordered
        cases hordered
      -- Neither run can be shown, and both report the same fault.
      | error fault' =>
        obtain rfl := completedInOrder_eq_error hkeys
        obtain rfl := completedInOrder_eq_error hkeys'
        rw [hkeys] at hontime
        rw [hkeys'] at hontime'
        exact ((hreport _).agrees ht hontime hontime').2.core

/-- Two runs that begin alike end alike, if the first one is aware of decisions wherever it comes
to. -/
theorem core_run {params : Fields} {r r' : RunState (Batched τ)} (hr : Alike signals r r')
    (haware : ∀ s started, outcome (setup params) r = (.ok s, started) →
      ∀ place t, Comes (World.inBatches work) s started place t → s.Aware signals place t)
    (hontime : (outcome (run (World.inBatches work) params) r).2.OnTime)
    (hontime' : (outcome (run (World.inBatches work) params) r').2.OnTime)
    (horder : (outcome (run (World.inBatches work) params) r).2.inbox.Orderable ↔
      (outcome (run (World.inBatches work) params) r').2.inbox.Orderable) :
    (outcome (run (World.inBatches work) params) r).2.core =
      (outcome (run (World.inBatches work) params) r').2.core := by
  -- A run is its setup, and then what is carried out.
  have hrun : ∀ u, outcome (run (World.inBatches work) params) u =
      match outcome (setup params) u with
      | (.ok s, started) => outcome (carryOut (World.inBatches work) s) started
      | (.error f, started) => (.error f, started) := by
    intro u
    cases hsetup : outcome (setup params) u with
    | mk result t =>
      cases result with
      | ok s => exact outcome_run hsetup
      | error f =>
        rw [run, outcome_bind, hsetup]
  -- The setup is on time, since the rest only adds to the history.
  have hmid : ∀ u, (outcome (run (World.inBatches work) params) u).2.OnTime →
      (outcome (setup params) u).2.OnTime := by
    intro u hu
    rw [hrun] at hu
    rcases hsetup : outcome (setup params) u with ⟨result, t⟩
    rw [hsetup] at hu
    cases result with
    | ok s => exact hu.of_prefix (grows_carryOut s t)
    | error f => exact hu
  obtain ⟨hsame, ht⟩ := (coupled_setup params).agrees hr (hmid r hontime) (hmid r' hontime')
  rw [hrun] at hontime hontime' horder ⊢
  rw [hrun] at horder ⊢
  rcases hsetup : outcome (setup params) r with ⟨result, t⟩
  rcases hsetup' : outcome (setup params) r' with ⟨result', t'⟩
  rw [hsetup] at hontime hsame ht horder
  rw [hsetup'] at hontime' hsame ht horder
  obtain rfl : result = result' := hsame
  cases result with
  | ok s => exact core_carryOut hplain ht (haware s t hsetup) hontime hontime' horder
  | error f => exact ht.core

end Runs

end Run
end Casework
