/-
  Casework.Proofs.Run.Coupling

  Two runs of one program that are told the same at different times. Their inboxes differ and so do
  their waits; all else is their core, and two runs are alike if they have the same core and know no
  decisions but those that there are. An act is coupled if it does the same from any two states that
  are alike, as long as no wait took too long. An act that does not read the inbox is coupled, and
  so is a wait: it lets messages in, and ends with what it waits for.
-/
import Casework.Proofs.Run.Decision
import Casework.Proofs.Run.Report

namespace Casework

variable {τ : Type}

-- ============================================================================
-- Messages in batches
-- ============================================================================

/-- The outside of a run, with the batches of messages that are still to come. -/
abbrev Batched (τ : Type) := τ × List (List Signal)

/-- A world that does work, and sends messages in batches, one at each wait; none come in
meanwhile. -/
def World.inBatches (work : Call → τ → Except Failure Json × τ) : World (Batched τ) where
  perform call outside := ((work call outside.1).1, (work call outside.1).2, outside.2)
  deliver outside := (outside.2.headD [], outside.1, outside.2.tail)

/-- An event is a wait that took too long. -/
def Event.isLate : Event → Bool
  | .called .. => false
  | .waited _ result _ => result == .timeout
  | .interrupted _ => false

namespace RunState

/-- No wait took too long. -/
def OnTime {σ : Type} (s : RunState σ) : Prop := ∀ event ∈ s.history, event.isLate = false

instance {σ : Type} (s : RunState σ) : Decidable s.OnTime :=
  inferInstanceAs (Decidable (∀ event ∈ s.history, event.isLate = false))

/-- What was on time at the end was so at every moment before. -/
theorem OnTime.of_prefix {σ : Type} {s s' : RunState σ} (h : s'.OnTime)
    (hbegin : s.history <+: s'.history) : s.OnTime :=
  fun event hmem => h event (hbegin.subset hmem)

/-- A run without what it has been told, and without its waits. -/
def core (s : RunState (Batched τ)) : RunState τ where
  outside := s.outside.1
  inbox := .empty
  taskKinds := s.taskKinds
  vars := s.vars
  step := s.step
  phase := s.phase
  stepsRun := s.stepsRun
  history := s.history.filter fun event => event.call?.isSome

theorem calls_core (s : RunState (Batched τ)) : s.core.calls = s.calls := by
  rw [calls, calls, core, List.filterMap_filter]
  congr 1
  funext event
  cases event.call? <;> rfl

end RunState

namespace Run

open RunState

variable {α β : Type} {signals : List Signal} {work : Call → τ → Except Failure Json × τ}

/-- What a run has been told, and what it will be told, are these messages. -/
structure Told (signals : List Signal) (s : RunState (Batched τ)) : Prop where
  decisions : s.inbox.Drawn signals
  batches : ∀ batch ∈ s.outside.2, ∀ m ∈ batch, m ∈ signals

/-- Two runs differ only in what they have been told when. -/
structure Alike (signals : List Signal) (s s' : RunState (Batched τ)) : Prop where
  core : s.core = s'.core
  left : Told signals s
  right : Told signals s'

namespace Alike

variable {s s' s'' : RunState (Batched τ)}

theorem symm (h : Alike signals s s') : Alike signals s' s := ⟨h.core.symm, h.right, h.left⟩

theorem trans (h : Alike signals s s') (h' : Alike signals s' s'') : Alike signals s s'' :=
  ⟨h.core.trans h'.core, h.left, h'.right⟩

theorem outside (h : Alike signals s s') : s.outside.1 = s'.outside.1 :=
  congrArg (fun c : RunState τ => c.outside) h.core

theorem taskKinds (h : Alike signals s s') : s.taskKinds = s'.taskKinds :=
  congrArg (fun c : RunState τ => c.taskKinds) h.core

theorem vars (h : Alike signals s s') : s.vars = s'.vars :=
  congrArg (fun c : RunState τ => c.vars) h.core

theorem step (h : Alike signals s s') : s.step = s'.step :=
  congrArg (fun c : RunState τ => c.step) h.core

/-- Runs stay alike if both are changed in the same way, but for what they have been told. -/
theorem change (h : Alike signals s s') {f : RunState (Batched τ) →
    RunState (Batched τ)} (g : RunState τ → RunState τ)
    (hcore : ∀ s, (f s).core = g s.core) (hinbox : ∀ s, (f s).inbox = s.inbox)
    (houtside : ∀ s, (f s).outside.2 = s.outside.2) : Alike signals (f s) (f s') where
  core := by rw [hcore, hcore, h.core]
  left := ⟨by rw [hinbox]; exact h.left.decisions, by rw [houtside]; exact h.left.batches⟩
  right := ⟨by rw [hinbox]; exact h.right.decisions, by rw [houtside]; exact h.right.batches⟩

end Alike

-- ============================================================================
-- Coupled acts
-- ============================================================================

/-- An act only adds to what has happened. -/
def Grows {σ : Type} (act : Act σ α) : Prop := ∀ s, s.history <+: (outcome act s).2.history

/-- One act after another adds to the history if both do. -/
theorem Grows.bind {σ : Type} {act : Act σ α} {next : α → Act σ β} (h : Grows act)
    (hnext : ∀ a, Grows (next a)) : Grows (act >>= next) := by
  intro s
  have hbegin := h s
  rw [outcome_bind]
  rcases hact : outcome act s with ⟨result, t⟩
  rw [hact] at hbegin
  cases result with
  | ok a => exact hbegin.trans (hnext a t)
  | error f => exact hbegin

/-- An act that leaves the state as it is adds nothing to the history. -/
theorem Grows.of_outcome {σ : Type} {act : Act σ α} {result : RunState σ → Except Failure α}
    (h : ∀ s, outcome act s = (result s, s)) : Grows act := by
  intro s
  refine ⟨[], ?_⟩
  rw [h, List.append_nil]

/-- Who catches a failure adds to the history, too. -/
theorem Grows.tryCatch {σ : Type} {act : Act σ α} {handle : Failure → Act σ α} (h : Grows act)
    (hhandle : ∀ f, Grows (handle f)) : Grows (tryCatch act handle) := by
  intro s
  have hbegin := h s
  rw [outcome_tryCatch]
  rcases hact : outcome act s with ⟨result, t⟩
  rw [hact] at hbegin
  cases result with
  | ok a => exact hbegin
  | error f => exact hbegin.trans (hhandle f t)

/-- From these two states an act has the same result and leaves states that are alike, unless a wait
took too long. -/
def CoupledAt (signals : List Signal) (act : Act (Batched τ) α)
    (s s' : RunState (Batched τ)) : Prop :=
  (outcome act s).2.OnTime → (outcome act s').2.OnTime →
    (outcome act s).1 = (outcome act s').1 ∧ Alike signals (outcome act s).2 (outcome act s').2

/-- An act does the same from any two states that are alike. -/
structure Coupled (signals : List Signal) (act : Act (Batched τ) α) : Prop where
  grows : Grows act
  agrees : ∀ {s s'}, Alike signals s s' → CoupledAt signals act s s'

/-- What comes behind an act may know its result, and that it leaves states that are alike. -/
theorem CoupledAt.bind {act : Act (Batched τ) α}
    {next : α → Act (Batched τ) β} {s s' : RunState (Batched τ)}
    (h : CoupledAt signals act s s') (hgrows : ∀ a, Grows (next a))
    (hnext : ∀ a t t', outcome act s = (.ok a, t) → outcome act s' = (.ok a, t') →
      Alike signals t t' → CoupledAt signals (next a) t t') :
    CoupledAt signals (act >>= next) s s' := by
  -- If all is on time in the end, it is so after the first act.
  have hmid : ∀ u, (outcome (act >>= next) u).2.OnTime → (outcome act u).2.OnTime := by
    intro u hu
    rw [outcome_bind] at hu
    rcases hact : outcome act u with ⟨result, t⟩
    rw [hact] at hu
    cases result with
    | ok a => exact hu.of_prefix (hgrows a t)
    | error f => exact hu
  intro hs hs'
  obtain ⟨hsame, halike⟩ := h (hmid s hs) (hmid s' hs')
  rw [outcome_bind] at hs hs' ⊢
  rw [outcome_bind]
  rcases hact : outcome act s with ⟨result, t⟩
  rcases hact' : outcome act s' with ⟨result', t'⟩
  rw [hact] at hs hsame halike
  rw [hact'] at hs' hsame halike
  -- Both first acts give the same, so the second goes on in both, or in neither.
  obtain rfl : result = result' := hsame
  cases result with
  | ok a => exact hnext a t t' hact hact' halike hs hs'
  | error f => exact ⟨rfl, halike⟩

/-- What comes behind a result that was there may know it. -/
theorem CoupledAt.lift_bind {result : Except Fault α} {next : α → Act (Batched τ) β}
    {s s' : RunState (Batched τ)} (hs : Alike signals s s')
    (hnext : ∀ a, result = .ok a → CoupledAt signals (next a) s s') :
    CoupledAt signals (Run.lift result >>= next) s s' := by
  cases result with
  | ok a => exact hnext a rfl
  | error f => exact fun _ _ => ⟨rfl, hs⟩

namespace Coupled

variable {act : Act (Batched τ) α} {next : α → Act (Batched τ) β}

/-- One act after another is coupled if both are. -/
theorem bind (h : Coupled signals act) (hnext : ∀ a, Coupled signals (next a)) :
    Coupled signals (act >>= next) where
  grows := h.grows.bind fun a => (hnext a).grows
  agrees hs := (h.agrees hs).bind (fun a => (hnext a).grows) fun a _ _ _ _ => (hnext a).agrees

/-- An act that has a result of its own and changes nothing. -/
theorem of_outcome {result : Except Failure α} (h : ∀ s, outcome act s = (result, s)) :
    Coupled signals act where
  grows := by
    have hreads : ∀ s, outcome act s = ((fun _ => result) s, s) := h
    exact .of_outcome hreads
  agrees hs _ _ := by
    rw [h, h]
    exact ⟨rfl, hs⟩

theorem pure (a : α) : Coupled signals (pure a : Act (Batched τ) α) :=
  .of_outcome fun _ => rfl

theorem throw (f : Failure) : Coupled signals (throw f : Act (Batched τ) α) :=
  .of_outcome fun _ => rfl

theorem lift (result : Except Fault α) :
    Coupled signals (lift result : Act (Batched τ) α) :=
  .of_outcome (outcome_lift result)

/-- What is read from a run is the same in runs that are alike. -/
theorem get_bind {next : RunState (Batched τ) → Act (Batched τ) β}
    (hsame : ∀ s s', Alike signals s s' → next s = next s')
    (hnext : ∀ s, Coupled signals (next s)) :
    Coupled signals (get >>= next) where
  grows s := (hnext s).grows s
  agrees {s s'} hs := by
    rw [CoupledAt, outcome_get_bind, outcome_get_bind, ← hsame s s' hs]
    exact (hnext s).agrees hs

/-- A change is coupled if it is one of the core, and leaves inbox and arrivals alone. -/
theorem of_modify {f : RunState (Batched τ) → RunState (Batched τ)}
    (g : RunState τ → RunState τ) (hcore : ∀ s, (f s).core = g s.core)
    (hinbox : ∀ s, (f s).inbox = s.inbox) (houtside : ∀ s, (f s).outside.2 = s.outside.2)
    (hhistory : ∀ s, (f s).history = s.history) :
    Coupled signals (modify f : Act (Batched τ) PUnit) where
  grows s := by
    refine ⟨[], ?_⟩
    rw [outcome_modify, hhistory, List.append_nil]
  agrees hs _ _ := ⟨rfl, hs.change g hcore hinbox houtside⟩

theorem map (f : α → β) (h : Coupled signals act) : Coupled signals (f <$> act) := by
  rw [← bind_pure_comp]
  exact h.bind fun _ => .pure _

theorem discard (h : Coupled signals act) : Coupled signals (discard act) := h.map _

/-- To act on one item after the other is coupled. -/
theorem mapM {act : α → Act (Batched τ) β} (h : ∀ a, Coupled signals (act a))
    (items : List α) : Coupled signals (items.mapM act) := by
  induction items with
  | nil =>
    rw [List.mapM_nil]
    exact .pure _
  | cons item rest ih =>
    rw [List.mapM_cons]
    exact .bind (h item) fun _ => .bind ih fun _ => .pure _

end Coupled

-- ============================================================================
-- Work and waits
-- ============================================================================

theorem grows_perform {σ : Type} (world : World σ) (activity : Activity) (params : Fields) :
    Grows (perform world activity params) := by
  intro s
  rw [outcome_perform]
  cases (world.perform ⟨activity, params⟩ s.outside).1 <;> exact List.prefix_append _ _

/-- A wait is added to the history. -/
theorem grows_await {σ : Type} (world : World σ) (seconds : Int) (holds : Inbox → Bool) :
    Grows (await world seconds holds) := by
  intro s
  rw [outcome_await]
  split
  · exact List.prefix_append _ _
  · cases (s.inbox.receiveAll (world.deliver s.outside).1).2 with
    | ok _ => exact List.prefix_append _ _
    | error f => exact List.prefix_append _ _

/-- What has happened lasts. -/
theorem lasting_grows {σ : Type} (world : World σ) (begun : List Event) :
    Lasting world (fun _ => True) (fun _ => True) (fun _ => True) (fun s => begun <+: s.history)
      fun _ s => begun <+: s.history := by
  have hkeeps : ∀ {β : Type} {act : Act σ β}, Grows act →
      Keeps act (fun s => begun <+: s.history) fun _ s => begun <+: s.history := by
    intro β act hgrows s hs
    have hafter := hs.trans (hgrows s)
    rcases hact : outcome act s with ⟨result, t⟩
    rw [hact] at hafter
    cases result <;> exact hafter
  exact {
    steady := fun s s' _ hhistory _ _ hs => hhistory ▸ hs
    enter := fun _ _ hs => hs
    put := fun _ _ _ _ hs => hs
    work := fun _ _ => hkeeps (grows_perform world _ _)
    create := fun _ => hkeeps (grows_perform world _ _)
    report := fun _ => hkeeps (grows_perform world _ _)
    await := hkeeps (grows_await world _ _)
    fault := fun _ _ hs => hs }

/-- A step only adds to what has happened. -/
theorem grows_of_stepped {σ : Type} {act : Act σ Bool}
    (h : ∀ begun : List Event, Ensures act (fun s => begun <+: s.history)
      (Stepped (fun s => begun <+: s.history) (fun s => begun <+: s.history)
        fun _ s => begun <+: s.history)) : Grows act := by
  intro s
  have hafter := h s.history s (List.prefix_refl _)
  rcases hact : outcome act s with ⟨result, t⟩
  rw [hact] at hafter
  cases result with
  | error f => exact hafter
  | ok ended => cases ended <;> exact hafter

/-- Work is answered in the same way, whatever has been told. -/
theorem Coupled.perform (activity : Activity) (params : Fields) :
    Coupled signals (perform (World.inBatches work) activity params) where
  grows := grows_perform _ activity params
  agrees {s s'} hs _ _ := by
    let call : Call := ⟨activity, params⟩
    -- Both worlds are changed alike by the work, and both note the same call.
    have hanswer : ∀ failure, Alike signals
        ((afterWork (World.inBatches work) call s).note (.called call failure))
        ((afterWork (World.inBatches work) call s').note (.called call failure)) := by
      intro failure
      refine hs.change (f :=
        fun s => (afterWork (World.inBatches work) call s).note (.called call failure))
        (fun c => { c with
          outside := (work call c.outside).2
          history := c.history ++ [.called call failure] }) (fun s => ?_)
            (fun _ => rfl) fun _ => rfl
      simp only [core, afterWork, note, List.filter_append]
      rfl
    rw [outcome_perform, outcome_perform]
    -- The answer depends on what is worked on only, which is the same for both.
    have hwork : ((World.inBatches work).perform call s.outside).1 =
        ((World.inBatches work).perform call s'.outside).1 := by
      show (work call s.outside.1).1 = (work call s'.outside.1).1
      rw [hs.outside]
    rw [hwork]
    cases ((World.inBatches work).perform call s'.outside).1 with
    | ok answer => exact ⟨rfl, hanswer none⟩
    | error failure => exact ⟨rfl, hanswer (some failure)⟩

section Waits

variable (work) (hplain : Signal.Plain signals) {s : RunState (Batched τ)} (hs : Told signals s)
  (seconds : Int) (holds : Inbox → Bool)

include hplain hs

/-- After a wait all signals have been told. -/
theorem told_afterWait :
    (s.inbox.receiveAll ((World.inBatches work).deliver s.outside).1).2 = .ok () ∧
      Told signals (afterWait (World.inBatches work) s) := by
  have hbatch : ∀ m ∈ s.outside.2.headD [], m ∈ signals := by
    intro m hm
    cases hbatches : s.outside.2 with
    | nil =>
      rw [hbatches] at hm
      cases hm
    | cons batch rest =>
      rw [hbatches] at hm
      exact hs.batches batch (hbatches ▸ List.mem_cons_self) m hm
  obtain ⟨htaken, hdrawn⟩ := hs.decisions.receiveAll hplain hbatch
  exact ⟨htaken, hdrawn, fun batch hrest => hs.batches batch (List.mem_of_mem_tail hrest)⟩

/-- Once all signals are told, a wait ends at once, or after what is delivered during it. -/
theorem outcome_await_told : outcome (await (World.inBatches work) seconds holds) s =
    if holds s.inbox then (.ok true, s.note (.waited seconds .immediate none))
    else (.ok (holds (afterWait (World.inBatches work) s).inbox),
      (afterWait (World.inBatches work) s).note (.waited seconds
        (if holds (afterWait (World.inBatches work) s).inbox then .signaled else .timeout)
        (some (afterWait (World.inBatches work) s).snapshot))) := by
  rw [outcome_await, (told_afterWait work hplain hs).1]

/-- A wait only lets messages in. -/
theorem alike_await :
    Alike signals s (outcome (await (World.inBatches work) seconds holds) s).2 := by
  have hnote : ∀ (t : RunState (Batched τ)) result after,
      (t.note (.waited seconds result after)).core = t.core := by
    intro t result after
    simp [core, note, Event.call?]
  have hwait : (afterWait (World.inBatches work) s).core = s.core := rfl
  obtain ⟨-, htold⟩ := told_afterWait work hplain hs
  rw [outcome_await_told work hplain hs]
  split
  · exact ⟨(hnote _ _ _).symm, hs, ⟨hs.decisions, hs.batches⟩⟩
  · exact ⟨hwait.symm.trans (hnote _ _ _).symm, hs, ⟨htold.decisions, htold.batches⟩⟩

/-- A wait that does not take too long ends with what was waited for. -/
theorem await_onTime (hontime : (outcome (await (World.inBatches work) seconds holds) s).2.OnTime) :
    (outcome (await (World.inBatches work) seconds holds) s).1 = .ok true ∧
      holds (outcome (await (World.inBatches work) seconds holds) s).2.inbox := by
  rw [outcome_await_told work hplain hs] at hontime ⊢
  split
  case isTrue hheld => exact ⟨rfl, hheld⟩
  case isFalse hheld =>
    rw [if_neg hheld] at hontime
    cases hafter : holds (afterWait (World.inBatches work) s).inbox with
    | true => exact ⟨rfl, hafter⟩
    | false =>
      rw [hafter] at hontime
      exact absurd (hontime _ (List.mem_append_right _ List.mem_cons_self)) (by simp [Event.isLate])

end Waits

theorem Coupled.await (hplain : Signal.Plain signals) (seconds : Int) (holds : Inbox → Bool) :
    Coupled signals (await (World.inBatches work) seconds holds) where
  grows := grows_await _ seconds holds
  agrees hs hontime hontime' :=
    ⟨(await_onTime work hplain hs.left seconds holds hontime).1.trans
        (await_onTime work hplain hs.right seconds holds hontime').1.symm,
      (alike_await work hplain hs.left seconds holds).symm.trans
        (hs.trans (alike_await work hplain hs.right seconds holds))⟩

-- ============================================================================
-- Acts
-- ============================================================================

namespace Coupled

variable {base : Base}

theorem rendered (j : Json) : Coupled signals (rendered j : Act (Batched τ) String) :=
  .get_bind (fun s s' hs => by rw [hs.vars]) fun _ => .pure _

theorem setVariable (path : String) (value : Json) :
    Coupled signals (setVariable path value : Act (Batched τ) Unit) :=
  .of_modify (fun c => { c with vars := c.vars.put path value }) (fun _ => rfl) (fun _ => rfl)
    (fun _ => rfl) fun _ => rfl

theorem report (changes : List (String × Json)) :
    Coupled signals (report (World.inBatches work) base changes) :=
  .discard (.perform _ _)

/-- To render a task is coupled: it reads variables, which are the same, and changes nothing. -/
theorem renderedTask (config : Json) :
    Coupled signals (renderedTask config : Act (Batched τ) Fields) := by
  unfold Run.renderedTask
  dsimp only
  split
  · refine .bind (.pure _) fun fields => .bind (.rendered _) fun title =>
      .bind (.lift _) fun items =>
      .bind (.mapM (fun link => .rendered link) items) fun links => ?_
    split
    · exact .bind (.rendered _) fun _ => .pure _
    · exact .pure _
  · exact .bind (.throw _) fun fields => .bind (.rendered _) fun title =>
      .bind (.lift _) fun items =>
      .bind (.mapM (fun link => .rendered link) items) fun links => by
        split
        · exact .bind (.rendered _) fun _ => .pure _
        · exact .pure _

theorem createTask (contact step config : Json) :
    Coupled signals (createTask (World.inBatches work) base contact step config) :=
  .bind (.renderedTask _) fun _ => .bind (.perform _ _) fun _ => .bind (.lift _) fun _ =>
    .bind (.setVariable _ _) fun _ => .bind (.lift _) fun key =>
      .of_modify (fun c => { c with taskKinds := c.taskKinds.put key _ }) (fun _ => rfl)
        (fun _ => rfl)
        (fun _ => rfl) fun _ => rfl

theorem sendMail (config : Json) :
    Coupled signals (sendMail (World.inBatches work) base config) :=
  .bind (.lift _) fun _ => .bind (.rendered _) fun _ => .bind (.rendered _) fun _ =>
    .bind (.rendered _) fun _ => .bind (.rendered _) fun _ => .discard (.perform _ _)

theorem notify (config : Json) : Coupled signals (notify (World.inBatches work) base config) :=
  .bind (.lift _) fun _ => .get_bind (fun s s' hs => by rw [hs.vars]) fun _ =>
    .bind (.lift _) fun _ =>
    .bind (.rendered _) fun _ => .bind (.rendered _) fun _ => .discard (.perform _ _)

theorem takeDecision (creator : Json) (approval : Fields) :
    Coupled signals (takeDecision creator approval : Act (Batched τ) Unit) :=
  .bind (.setVariable _ _) fun _ => .bind (.setVariable _ _) fun _ => .setVariable _ _

theorem turn (phase : RunPhase) :
    Coupled signals (modify fun s => { s with phase } : Act (Batched τ) PUnit) :=
  .of_modify (fun c => { c with phase }) (fun _ => rfl) (fun _ => rfl) (fun _ => rfl) fun _ => rfl

theorem timeOut (statuses task : Json) :
    Coupled signals (timeOut (World.inBatches work) base statuses task) :=
  .bind (.turn _) fun _ => .bind (.lift _) fun _ => .report _

theorem complete (statuses : Json) :
    Coupled signals (complete (World.inBatches work) base statuses) :=
  .bind (.turn _) fun _ => .bind (.lift _) fun _ => .report _

theorem reportFailure (statuses : Json) (failure : Failure) :
    Coupled signals (reportFailure (World.inBatches work) base statuses failure) :=
  .bind (.turn _) fun _ => .bind (.lift _) fun _ =>
    .get_bind (fun s s' hs => by rw [hs.step]) fun _ => .report _

end Coupled

end Run
end Casework
