/-
  Casework.Proofs.Run.Act

  Reasoning about the acts of a run. What an act gives is its outcome: a result or a failure, and
  the state that it leaves, which is kept when it fails. `Ensures` says that from certain states the
  outcome is as it should be; `Keeps` says that an invariant is kept, and what may be after a
  failure.
-/
import Casework.Run.Interpreter

namespace Casework.Run

variable {σ α β : Type}

-- ============================================================================
-- Outcomes
-- ============================================================================

/-- What an act gives in a state, and the state that it leaves, also when it fails. -/
def outcome (act : Act σ α) (s : RunState σ) : Except Failure α × RunState σ := act.run.run s

theorem outcome_get (s : RunState σ) : outcome (get : Act σ (RunState σ)) s = (.ok s, s) := rfl

theorem outcome_modify (f : RunState σ → RunState σ) (s : RunState σ) :
    outcome (modify f : Act σ PUnit) s = (.ok ⟨⟩, f s) := rfl

theorem outcome_lift (result : Except Fault α) (s : RunState σ) :
    outcome (lift result : Act σ α) s = (Failure.ofFault result, s) := by
  cases result <;> rfl

/-- After the first act the next one goes on from the state that it leaves, unless it has failed. -/
theorem outcome_bind (act : Act σ α) (next : α → Act σ β) (s : RunState σ) :
    outcome (act >>= next) s =
      match outcome act s with
      | (.ok a, s') => outcome (next a) s'
      | (.error f, s') => (.error f, s') := by
  rw [outcome, outcome, ExceptT.run_bind, StateT.run_bind]
  rcases act.run.run s with ⟨result, s'⟩
  cases result <;> rfl

/-- Two acts succeed one after the other if the first succeeds, and the second from there. -/
theorem outcome_bind_eq_ok_iff {act : Act σ α} {next : α → Act σ β} {s s'' : RunState σ} {b : β} :
    outcome (act >>= next) s = (.ok b, s'') ↔
      ∃ a s', outcome act s = (.ok a, s') ∧ outcome (next a) s' = (.ok b, s'') := by
  rw [outcome_bind]
  rcases outcome act s with ⟨result, s'⟩
  cases result with
  | ok a =>
    constructor
    · exact fun h => ⟨a, s', rfl, h⟩
    · rintro ⟨_, _, hact, h⟩
      cases hact
      exact h
  | error f =>
    constructor
    · intro h
      cases h
    · rintro ⟨_, _, hact, -⟩
      cases hact

/-- A function of the result leaves the state as it is. -/
theorem outcome_map (f : α → β) (act : Act σ α) (s : RunState σ) :
    outcome (f <$> act) s = ((outcome act s).1.map f, (outcome act s).2) := by
  rw [← bind_pure_comp, outcome_bind]
  rcases outcome act s with ⟨result, s'⟩
  cases result <;> rfl

theorem outcome_discard (act : Act σ α) (s : RunState σ) :
    outcome (discard act) s = ((outcome act s).1.map fun _ => (), (outcome act s).2) :=
  outcome_map (fun _ => ()) act s

/-- Who catches a failure goes on from the state that it leaves. -/
theorem outcome_tryCatch (act : Act σ α) (handle : Failure → Act σ α) (s : RunState σ) :
    outcome (tryCatch act handle) s =
      match outcome act s with
      | (.ok a, s') => (.ok a, s')
      | (.error f, s') => outcome (handle f) s' := by
  show (ExceptT.tryCatch act handle).run.run s = _
  rw [ExceptT.tryCatch, ExceptT.run_mk, StateT.run_bind]
  rcases h : outcome act s with ⟨result, s'⟩
  have hrun : StateT.run act s = (result, s') := h
  rw [hrun]
  cases result <;> rfl

theorem outcome_get_bind (next : RunState σ → Act σ β) (s : RunState σ) :
    outcome (get >>= next) s = outcome (next s) s := rfl

theorem outcome_lift_bind {result : Except Fault α} {a : α} (h : result = .ok a)
    (next : α → Act σ β) (s : RunState σ) :
    outcome (lift result >>= next) s = outcome (next a) s := by
  subst h
  rfl

/-- A step without a state succeeds if it has a result, which the next act goes on with. -/
theorem outcome_lift_bind_eq_ok_iff {result : Except Fault α} {next : α → Act σ β}
    {s s' : RunState σ} {b : β} :
    outcome (lift result >>= next) s = (.ok b, s') ↔
      ∃ a, result = .ok a ∧ outcome (next a) s = (.ok b, s') := by
  constructor
  · intro h
    cases hresult : result with
    | ok a => exact ⟨a, rfl, by rwa [outcome_lift_bind hresult] at h⟩
    | error f =>
      rw [outcome_bind, outcome_lift, hresult] at h
      cases h
  · rintro ⟨a, hresult, h⟩
    rwa [outcome_lift_bind hresult]

-- ============================================================================
-- Work and waits
-- ============================================================================

/-- The state after work has been done outside, with the messages that came in meanwhile. -/
def afterWork (world : World σ) (call : Call) (s : RunState σ) : RunState σ :=
  { s with
    outside := (world.arrive (world.perform call s.outside).2).2
    inbox := (s.inbox.receiveAll (world.arrive (world.perform call s.outside).2).1).1 }

/-- The state after messages have been waited for. -/
def afterWait (world : World σ) (s : RunState σ) : RunState σ :=
  { s with
    outside := (world.deliver s.outside).2
    inbox := (s.inbox.receiveAll (world.deliver s.outside).1).1 }

/-- Work gives what the world answers, and whether it failed is noted. -/
theorem outcome_perform (world : World σ) (activity : Activity) (params : Fields) (s : RunState σ) :
    outcome (perform world activity params) s =
      match (world.perform ⟨activity, params⟩ s.outside).1 with
      | .ok answer =>
        (.ok answer, (afterWork world ⟨activity, params⟩ s).note (.called ⟨activity, params⟩ none))
      | .error failure =>
        (.error .activity,
          (afterWork world ⟨activity, params⟩ s).note
            (.called ⟨activity, params⟩ (some failure))) := by
  rw [perform, outcome_get_bind]
  dsimp only
  cases (world.perform ⟨activity, params⟩ s.outside).1 <;> rfl

/-- A wait is over at once, or messages come in, of which one can be at fault. -/
theorem outcome_await (world : World σ) (seconds : Int) (holds : Inbox → Bool) (s : RunState σ) :
    outcome (await world seconds holds) s =
      if holds s.inbox then (.ok true, s.note (.waited seconds .immediate none))
      else match (s.inbox.receiveAll (world.deliver s.outside).1).2 with
        | .ok _ =>
          (.ok (holds (afterWait world s).inbox), (afterWait world s).note (.waited seconds
            (if holds (afterWait world s).inbox then .signaled else .timeout)
            (some (afterWait world s).snapshot)))
        | .error f => (.error (.fault f), (afterWait world s).note (.interrupted seconds)) := by
  rw [await, outcome_get_bind]
  split
  · rfl
  · dsimp only
    cases (s.inbox.receiveAll (world.deliver s.outside).1).2 <;> rfl

-- ============================================================================
-- Pre- and post-conditions
-- ============================================================================

/-- From every state that fulfils the pre-condition, the outcome fulfils the post-condition. -/
def Ensures (act : Act σ α) (pre : RunState σ → Prop)
    (post : Except Failure α → RunState σ → Prop) : Prop :=
  ∀ s, pre s → post (outcome act s).1 (outcome act s).2

/-- An act went well and left a state as it should be, or failed and left what may be then. -/
def Left {α : Type} (inv : RunState σ → Prop) (bad : Failure → RunState σ → Prop) :
    Except Failure α → RunState σ → Prop
  | .ok _, s => inv s
  | .error f, s => bad f s

/-- What is left after an act may be said less of after a failure. -/
theorem Left.mono {inv : RunState σ → Prop} {bad bad' : Failure → RunState σ → Prop}
    (hbad : ∀ f s, bad f s → bad' f s) {result : Except Failure α} {s : RunState σ}
    (h : Left inv bad result s) : Left inv bad' result s := by
  cases result with
  | ok a => exact h
  | error f => exact hbad f s h

/-- An act leaves a state as it should be if it found one, unless it fails. -/
abbrev Keeps (act : Act σ α) (inv : RunState σ → Prop) (bad : Failure → RunState σ → Prop) : Prop :=
  Ensures act inv (Left inv bad)

namespace Ensures

variable {act : Act σ α} {next : α → Act σ β} {pre inv : RunState σ → Prop}
  {bad : Failure → RunState σ → Prop} {mid : Except Failure α → RunState σ → Prop}
  {post : Except Failure β → RunState σ → Prop}

/-- One act after another: what holds in between is what the second begins with, and what a failure
of the first leaves. -/
theorem bind (hact : Ensures act pre mid) (hnext : ∀ a, Ensures (next a) (mid (.ok a)) post)
    (herror : ∀ f s, mid (.error f) s → post (.error f) s) : Ensures (act >>= next) pre post := by
  intro s hs
  have hmid := hact s hs
  rw [outcome_bind]
  rcases h : outcome act s with ⟨result, s'⟩
  rw [h] at hmid
  cases result with
  | ok a => exact hnext a s' hmid
  | error f => exact herror f s' hmid

/-- After an act that keeps the invariant, the rest of the work begins with it. -/
theorem after (hact : Keeps act inv bad) (hnext : ∀ a, Ensures (next a) inv post)
    (herror : ∀ f s, bad f s → post (.error f) s) : Ensures (act >>= next) inv post :=
  bind hact hnext herror

/-- The rest of the work knows what the act can give. -/
theorem after_knowing (hact : Keeps act inv bad) (know : α → Prop)
    (hknow : ∀ s a s', outcome act s = (.ok a, s') → know a)
    (hnext : ∀ a, know a → Ensures (next a) inv post)
    (herror : ∀ f s, bad f s → post (.error f) s) : Ensures (act >>= next) inv post := by
  intro s hs
  have hafter := hact s hs
  rw [outcome_bind]
  rcases h : outcome act s with ⟨result, s'⟩
  rw [h] at hafter
  cases result with
  | ok a => exact hnext a (hknow s a s' h) s' hafter
  | error f => exact herror f s' hafter

/-- The rest of the work knows the result that was there, and a fault leaves everything as it
was. -/
theorem lift_bind {result : Except Fault α} (h : ∀ a, result = .ok a → Ensures (next a) pre post)
    (hfault : ∀ f s, pre s → post (.error (.fault f)) s) :
    Ensures (lift result >>= next) pre post := by
  intro s hs
  rw [outcome_bind, outcome_lift]
  cases hresult : result with
  | ok a => exact h a hresult s hs
  | error f => exact hfault f s hs

/-- A failure leaves the state as it is. -/
theorem throw {f : Failure} (h : ∀ s, pre s → mid (.error f) s) :
    Ensures (throw f : Act σ α) pre mid := h

theorem throw_bind {f : Failure} (h : ∀ s, pre s → post (.error f) s) :
    Ensures ((MonadExcept.throw f : Act σ α) >>= next) pre post := h

/-- A function of the result leaves the state as it is. -/
theorem map (f : α → β) (hact : Ensures act pre mid)
    (hpost : ∀ result s, mid result s → post (result.map f) s) : Ensures (f <$> act) pre post := by
  intro s hs
  rw [outcome_map]
  exact hpost _ _ (hact s hs)

/-- What is done about a failure begins with what the failure left. -/
theorem tryCatch {handle : Failure → Act σ α} {post : Except Failure α → RunState σ → Prop}
    (hact : Ensures act pre mid) (hok : ∀ a s, mid (.ok a) s → post (.ok a) s)
    (hhandle : ∀ f, Ensures (handle f) (mid (.error f)) post) :
    Ensures (tryCatch act handle) pre post := by
  intro s hs
  have hmid := hact s hs
  rw [outcome_tryCatch]
  rcases h : outcome act s with ⟨result, s'⟩
  rw [h] at hmid
  cases result with
  | ok a => exact hok a s' hmid
  | error f => exact hhandle f s' hmid

/-- More may be asked for before an act, and less be said after it. -/
theorem mono {pre' : RunState σ → Prop} (h : Ensures act pre mid) (hpre : ∀ s, pre' s → pre s)
    {mid' : Except Failure α → RunState σ → Prop}
    (hmid : ∀ result s, mid result s → mid' result s) :
    Ensures act pre' mid' :=
  fun s hs => hmid _ _ (h s (hpre s hs))

end Ensures

namespace Keeps

variable {inv : RunState σ → Prop} {bad : Failure → RunState σ → Prop}

/-- An act that always leaves the invariant, and fails in certain ways only. -/
theorem of_always {act : Act σ α} {fails : Failure → Prop}
    (hinv : ∀ s, inv s → inv (outcome act s).2)
    (hfails : ∀ s f, (outcome act s).1 = .error f → fails f) :
    Keeps act inv fun f s => fails f ∧ inv s := by
  intro s hs
  have hafter := hinv s hs
  cases hresult : (outcome act s).1 with
  | ok a => exact hafter
  | error f => exact ⟨hfails s f hresult, hafter⟩

theorem pure (a : α) : Keeps (pure a : Act σ α) inv bad := fun _ h => h

theorem get : Keeps (get : Act σ (RunState σ)) inv bad := fun _ h => h

theorem lift (h : ∀ f s, inv s → bad (.fault f) s) (result : Except Fault α) :
    Keeps (lift result : Act σ α) inv bad := by
  intro s hs
  rw [outcome_lift]
  cases result with
  | ok a => exact hs
  | error f => exact h f s hs

/-- A change keeps an invariant if it does so in every state. -/
theorem modify {f : RunState σ → RunState σ} (h : ∀ s, inv s → inv (f s)) :
    Keeps (modify f : Act σ PUnit) inv bad := h

theorem bind {act : Act σ α} {next : α → Act σ β} (hact : Keeps act inv bad)
    (hnext : ∀ a, Keeps (next a) inv bad) : Keeps (act >>= next) inv bad :=
  Ensures.after hact hnext fun _ _ h => h

theorem map (f : α → β) {act : Act σ α} (hact : Keeps act inv bad) : Keeps (f <$> act) inv bad := by
  refine Ensures.map f hact fun result s h => ?_
  cases result <;> exact h

theorem discard {act : Act σ α} (hact : Keeps act inv bad) : Keeps (discard act) inv bad :=
  Keeps.map _ hact

/-- To act on one item after the other keeps what each act keeps. -/
theorem mapM {act : α → Act σ β} (hact : ∀ a, Keeps (act a) inv bad) (items : List α) :
    Keeps (items.mapM act) inv bad := by
  induction items with
  | nil =>
    rw [List.mapM_nil]
    exact .pure _
  | cons item rest ih =>
    rw [List.mapM_cons]
    exact .bind (hact item) fun b => .bind ih fun bs => .pure _

end Keeps

end Casework.Run
