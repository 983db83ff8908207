/-
  Casework.Proofs.Task.Claim

  When a claim succeeds that nothing comes between. What a claim checks itself is whether its actor
  may claim the task; but it takes an empty name for nobody, as that test does, and its write does
  not. So a task that was given to the empty name is refused to those who may claim it.
-/
import Casework.Proofs.Task.Requirement

namespace Casework

open Store

-- ============================================================================
-- Roles
-- ============================================================================

/-- A role that somebody holds is not empty. -/
theorem AccessContext.ne_empty_of_holdsRole {actor : AccessContext} {role : Option String}
    (h : actor.holdsRole role) : role.getD "" ≠ "" := by
  cases role with
  | none => cases h
  | some role =>
    rintro rfl
    cases h

theorem AccessContext.canClaim_iff {actor : AccessContext} {t : Task} :
    actor.canClaim t.assignment ↔ t.assignee.getD "" = "" ∧ actor.holdsRole t.role := by
  rw [canClaim, Bool.and_eq_true, beq_iff_eq]
  rfl

namespace Task

open Lifecycle

-- ============================================================================
-- Parts of a claim
-- ============================================================================

/-- How a claim goes on after its write. -/
def afterClaim : Option Task → Dialogue Transition
  | none => do
    Dialogue.require (← Dialogue.request .isThere) missing
    .fail (held (← Dialogue.request .read))
  | some claimed => do
    Dialogue.request .commit
    Dialogue.request (.log "claimed" (.obj [("assignedRole", .optText claimed.role)]))
    pure { task := claimed }

/-- How a claim goes on with the task that it has looked at. -/
def claimOf (actor : AccessContext) (t : Task) : Dialogue Transition := do
  Dialogue.require (t.role.getD "" != "")
    (.invalid "Task is not assigned to a role and cannot be claimed")
  Dialogue.require (t.assignee.getD "" == "") (held (some t))
  Dialogue.require (actor.holdsRole t.role)
    (.forbidden "You do not have the role required to claim this task")
  afterClaim (← Dialogue.request (.write (.claim (some actor.user))))

/-- A claim reads the task first. -/
theorem claim_eq_load (actor : AccessContext) : claim actor = load >>= claimOf actor := by
  refine congrArg (load >>= ·) (funext fun t => ?_)
  refine congrArg (_ >>= ·) (funext fun _ => congrArg (_ >>= ·) (funext fun _ => ?_))
  refine congrArg (_ >>= ·) (funext fun _ => congrArg (_ >>= ·) (funext fun claimed => ?_))
  cases claimed <;> rfl

section ClaimOf

variable {actor : AccessContext} {t : Task}

/-- Whoever may claim the task goes on to write. -/
theorem claimOf_of_canClaim (h : actor.canClaim t.assignment) :
    claimOf actor t = .ask (.write (.claim (some actor.user))) afterClaim := by
  obtain ⟨hfree, hrole⟩ := AccessContext.canClaim_iff.1 h
  rw [claimOf, bne_iff_ne.2 (AccessContext.ne_empty_of_holdsRole hrole), beq_iff_eq.2 hfree, hrole]
  rfl

/-- Nobody else does. -/
theorem claimOf_of_not_canClaim (h : ¬ actor.canClaim t.assignment) :
    ∃ f, claimOf actor t = .fail f := by
  rw [AccessContext.canClaim_iff, not_and_or] at h
  rw [claimOf]
  cases t.role.getD "" != "" with
  | false => exact ⟨_, rfl⟩
  | true =>
    obtain hheld | hrole := h
    · rw [beq_eq_false_iff_ne.2 hheld]
      exact ⟨_, rfl⟩
    · cases t.assignee.getD "" == "" with
      | false => exact ⟨_, rfl⟩
      | true =>
        rw [Bool.eq_false_iff.2 hrole]
        exact ⟨_, rfl⟩

/-- A task that somebody has is refused to those who hold its role. -/
theorem claimOf_of_held (hrole : actor.holdsRole t.role) (hheld : t.assignee.getD "" ≠ "") :
    claimOf actor t = .fail (held (some t)) := by
  rw [claimOf, bne_iff_ne.2 (AccessContext.ne_empty_of_holdsRole hrole),
    beq_eq_false_iff_ne.2 hheld]
  rfl

end ClaimOf

-- ============================================================================
-- A claim in one go
-- ============================================================================

variable {o : Order} {s : Session} {t : Task}

namespace Order

/-- A claim goes on from the task as it is read. -/
theorem carry_claim (hoperation : o.operation = .claim) (ht : o.task? s = some t) :
    o.carry o.dialogue s = o.carry (claimOf o.actor t) s := by
  rw [dialogue, hoperation]
  dsimp only
  rw [claim_eq_load, carry_load ht]

/-- Who may not claim a task is refused, and everything stays as it is. -/
theorem perform_of_not_canClaim (hs : s.Settled) (hoperation : o.operation = .claim)
    (ht : o.task? s = some t) (h : ¬ o.actor.canClaim t.assignment) :
    ∃ f, o.perform s = (.error f, s) := by
  obtain ⟨f, hf⟩ := claimOf_of_not_canClaim h
  refine ⟨f, transact_of_reads hs ((carry_claim hoperation ht).trans ?_)⟩
  rw [hf]
  rfl

/-- Whoever may claim a task that has no assignee has it afterwards. -/
theorem perform_of_free (hoperation : o.operation = .claim) (ht : o.task? s = some t)
    (h : o.actor.canClaim t.assignment) (hfree : t.assignee = none) :
    ∃ transition, (o.perform s).1 = .ok transition ∧
      transition.task = (Write.claim (some o.actor.user)).apply s.now.bare t ∧
      o.task? (o.perform s).2 = some transition.task := by
  have happlies : (Write.claim (some o.actor.user)).applies t := Option.isNone_iff_eq_none.2 hfree
  -- What is left to do once the write is committed leaves the task as it was written.
  have hrest : (do
      Dialogue.request (.log "claimed" (.obj [("assignedRole", .optText t.role)]))
      pure ({ task := (Write.claim (some o.actor.user)).apply s.now.bare t } : Transition)).Yields
        fun transition : Transition => transition.task =
          (Write.claim (some o.actor.user)).apply s.now.bare t :=
    .request trivial fun _ => rfl
  have hsettled : (s.alter o.task o.actor.org
      ((Write.claim (some o.actor.user)).apply s.now.bare)).Settled :=
    rfl
  obtain ⟨transition, s', htask, hended, htasks⟩ := carry_of_yields (o := o) hrest hsettled
  have hcarry : o.carry o.dialogue s = (.ok transition, s') := by
    rw [carry_claim hoperation ht, claimOf_of_canClaim h]
    exact (carry_bind (carry_write_of_applies ht happlies)).trans hended
  obtain ⟨hok, hfound⟩ := perform_of_written ht hcarry htask htasks
  exact ⟨transition, hok, htask, hfound⟩

/-- A task that was given to the empty name is refused to whoever may claim it. -/
theorem perform_of_empty (hs : s.Settled) (hoperation : o.operation = .claim)
    (ht : o.task? s = some t)
    (h : o.actor.canClaim t.assignment) (hempty : t.assignee = some "") :
    o.perform s = (.error (held (some t)), s) := by
  have hnot : ¬ (Write.claim (some o.actor.user)).applies t := by simp [Write.applies, hempty]
  have hthere : o.carry (Dialogue.request .isThere) s = (.ok true, s) := by
    have hresult : result (Task.answer o.reach o.task o.actor .isThere) s =
        (.ok (o.task? s).isSome, s) :=
      rfl
    rw [ht] at hresult
    exact carry_request hresult
  refine transact_of_reads hs ((carry_claim hoperation ht).trans ?_)
  rw [claimOf_of_canClaim h]
  exact (carry_bind (carry_write_of_not_applies ht hnot)).trans
    ((carry_bind hthere).trans ((carry_require rfl).trans (carry_bind (carry_read ht))))

/-- A claim that nothing comes between succeeds exactly if its actor may claim the task and the task
was not given to the empty name. Then the actor has the task, and otherwise everything stays as it
is. -/
theorem claim_succeeds_iff (hs : s.Settled) (hoperation : o.operation = .claim)
    (ht : o.task? s = some t) :
    ((∃ transition, (o.perform s).1 = .ok transition) ↔
      o.actor.canClaim t.assignment ∧ t.assignee ≠ some "") ∧
    (∀ transition, (o.perform s).1 = .ok transition →
      transition.task = (Write.claim (some o.actor.user)).apply s.now.bare t ∧
        o.task? (o.perform s).2 = some transition.task) ∧
    ∀ f, (o.perform s).1 = .error f → (o.perform s).2 = s := by
  by_cases h : o.actor.canClaim t.assignment ∧ t.assignee ≠ some ""
  case neg =>
    obtain ⟨f, hf⟩ : ∃ f, o.perform s = (.error f, s) := by
      -- Either the actor may not claim the task, or it is assigned to nobody's name, which the
      -- check takes for free and the write does not.
      by_cases hmay : o.actor.canClaim t.assignment
      · have hempty : t.assignee = some "" := not_not.1 fun hne => h ⟨hmay, hne⟩
        exact ⟨_, perform_of_empty hs hoperation ht hmay hempty⟩
      · exact perform_of_not_canClaim hs hoperation ht hmay
    rw [hf]
    refine ⟨iff_of_false ?_ h, fun _ hok => ?_, fun _ _ => rfl⟩
    · rintro ⟨_, hok⟩
      cases hok
    · cases hok
  case pos =>
    obtain ⟨hmay, hne⟩ := h
    -- The check leaves nobody or the empty name; the latter is excluded.
    have hfree : t.assignee = none := by
      obtain ⟨hnobody, -⟩ := AccessContext.canClaim_iff.1 hmay
      cases hassignee : t.assignee with
      | none => rfl
      | some user =>
        rw [hassignee] at hnobody hne
        exact absurd (congrArg some hnobody) hne
    obtain ⟨transition, hok, htask, hfound⟩ := perform_of_free hoperation ht hmay hfree
    rw [hok]
    refine ⟨iff_of_true ⟨transition, rfl⟩ ⟨hmay, hne⟩, fun _ hsame => ?_, fun _ herror => ?_⟩
    · cases hsame
      exact ⟨htask, hfound⟩
    · cases herror

end Order

namespace Office

/-- A run creates a task for a role that Ann holds. -/
def forSupport : List Move := [creatingFor [("type", .text "role"), ("role", .text "support")]]

/-- Ann takes a task that nobody has. -/
theorem claim_succeeds_support :
    ∃ t transition, claiming.task? ((opened emptyStore).play forSupport).session = some t ∧
      (claiming.perform ((opened emptyStore).play forSupport).session).1 = .ok transition ∧
      transition.task.assignee = some "ann" := by
  have hs := ((Proper.opened emptyStore).play forSupport).settled
  obtain ⟨t, ht, hmay, hfree⟩ : ∃ t,
    claiming.task? ((opened emptyStore).play forSupport).session = some t ∧
      claiming.actor.canClaim t.assignment ∧ t.assignee = none :=
    ⟨_, rfl, by decide +kernel⟩
  obtain ⟨hsucceeds, htask, -⟩ := Order.claim_succeeds_iff hs rfl ht
  obtain ⟨transition, hok⟩ := hsucceeds.2 ⟨hmay, by rw [hfree]; simp⟩
  exact ⟨t, transition, ht, hok, by rw [(htask transition hok).1]; rfl⟩

/-- An administrator gives the task to the empty name. -/
def vacated : List Move :=
  forSupport ++ [.arrive (editing "task-1" [("assigned_to", .text "")]), .turn 0, .turn 0,
    .turn 0, .turn 0]

/-- A task of a role can be refused to somebody who may claim it. -/
theorem not_all_claims_succeed :
    ¬ ∀ (moves : List Move) (o : Order) (t : Task), o.operation = .claim →
      o.task? ((opened emptyStore).play moves).session = some t →
        ((∃ transition, (o.perform ((opened emptyStore).play moves).session).1 = .ok transition) ↔
          o.actor.canClaim t.assignment) := by
  intro h
  have hs := ((Proper.opened emptyStore).play vacated).settled
  obtain ⟨t, ht, hempty, hmay⟩ : ∃ t,
    claiming.task? ((opened emptyStore).play vacated).session = some t ∧
      t.assignee = some "" ∧ claiming.actor.canClaim t.assignment := by
    -- The names of the fields that are edited are sorted, which is no structural recursion.
    refine ⟨?_, ?found, ?empty, ?may⟩
    case found => with_unfolding_all exact rfl
    case empty => with_unfolding_all exact rfl
    case may => with_unfolding_all exact rfl
  obtain ⟨transition, hok⟩ := (h vacated claiming t rfl ht).2 hmay
  rw [Order.perform_of_empty hs rfl ht hmay hempty] at hok
  cases hok

end Office

end Task
end Casework
