/-
  Casework.Proofs.Task.Claimant

  One claimant for each task. Claims of a task that nobody has take turns in any way, and others may
  be busy with other tasks meanwhile. The first write applies, because nobody has the task, and no
  other one does after it; so whoever looks at the task again, or only then, is told who has it.
-/
import Casework.Proofs.Task.Claim

namespace Casework.Task

open Lifecycle Dialogue

-- ============================================================================
-- One request
-- ============================================================================

/-- An exchange that gives a task to who asked for it. -/
def Exchange.takes : Exchange → Bool
  | ⟨.write (.claim _), .ok (some _)⟩ => true
  | _ => false

/-- A request that spares the rows takes nothing. -/
theorem Exchange.takes_of_spares {r : Request} (h : r.Spares) (answer : Except Failure r.Answer) :
    (⟨r, answer⟩ : Exchange).takes = false := by
  cases r with
  | write w => exact h.elim
  | update given => exact h.elim
  | _ => rfl

namespace Order

variable {o : Order} {s : Session} {r : Request} {t : Task}

/-- Operations on other tasks leave a task as it is. -/
theorem task?_answer_of_not_isOn (hs : s.Settled) {id org : String} (hoff : ¬ o.isOn id org) :
    (o.answer r s).2.task? id org = s.task? id org := by
  have hother : ¬ (id = o.task ∧ org = o.actor.org) := fun h => hoff (isOn_iff.2 h)
  -- The two requests that alter a row alter the one that the operation is on.
  cases r with
  | write w =>
    rcases o.answer_write_cases hs w with heq | ⟨u, -, -, heq⟩
    · rw [heq]
    · rw [heq, Session.task?_alter fun v hv => w.isOf_apply _ hv, if_neg hother]
  | update given =>
    rcases o.answer_update_cases hs given with heq | ⟨u, c, hu, heq⟩
    · rw [heq]
    · have hid : Record.isOf o.task o.actor.org u := List.find?_some hu
      rw [heq]
      exact (Session.task?_alter (f := fun _ => (c.apply s.now u).bare)
        (fun _ _ => hid) id org).trans
        (if_neg hother)
  | _ => exact (o.same_answer hs (by simp) (by simp)).task? id org

theorem same_answer_of_spares (hs : s.Settled) (h : r.Spares) : s.Same (o.answer r s).2 := by
  refine o.same_answer hs ?_ ?_
  · rintro w rfl
    exact h
  · rintro given rfl
    exact h

theorem exists_answer_of_spares (h : r.Spares) : ∃ a, (o.answer r s).1 = .ok a :=
  Store.exists_transact_eq_ok (exists_result_answer o.reach o.task o.actor h s)

/-- What a request of a claim makes of its task, and whether the claim takes the task by it. -/
inductive Took (o : Order) (t : Task) : Task → Bool → Prop where
  | nothing : Took o t t false
  | task (hfree : t.assignee = none) (moment : Moment) :
    Took o t ((Write.claim (some o.actor.user)).apply moment t) true

end Order

-- ============================================================================
-- One claim
-- ============================================================================

/-- Where a claim is when its task is `t`, and whether it has taken the task. -/
inductive Claiming (o : Order) (t : Task) : Bool → Dialogue Transition → Prop where
  /-- It has not looked at the task. -/
  | begins : Claiming o t false (load >>= claimOf o.actor)
  /-- It has seen that nobody has the task. -/
  | writes : Claiming o t false (.ask (.write (.claim (some o.actor.user))) afterClaim)
  /-- Its write has not applied. -/
  | loses (hheld : t.assignee ≠ none) : Claiming o t false (afterClaim none)
  /-- It looks who has the task. -/
  | looks (hheld : t.assignee ≠ none) :
    Claiming o t false (.ask .read fun current => .fail (held current))
  /-- It has been told who has the task. -/
  | refused (hheld : t.assignee ≠ none) : Claiming o t false (.fail (held (some t)))
  /-- It has taken the task. -/
  | wins {rest : Dialogue Transition} (hheld : t.assignee = some o.actor.user)
    (hrest : rest.Yields fun transition => transition = { task := t }) : Claiming o t true rest

namespace Claiming

variable {o other : Order} {t t' : Task} {taken took : Bool} {rest : Dialogue Transition}

/-- A claim stays where it is while others have their turns. -/
theorem of_took (h : Claiming o t taken rest) (htook : other.Took t t' took) :
    Claiming o t' taken rest := by
  cases htook with
  | nothing => exact h
  | task hfree moment =>
    cases h with
    | begins => exact .begins
    | writes => exact .writes
    | loses hheld => exact absurd hfree hheld
    | looks hheld => exact absurd hfree hheld
    | refused hheld => exact absurd hfree hheld
    | wins hheld _ =>
      rw [hfree] at hheld
      cases hheld

/-- A claim that has taken the task has it. -/
theorem assignee_eq (h : Claiming o t true rest) : t.assignee = some o.actor.user := by
  cases h with
  | wins hheld _ => exact hheld

/-- How a claim ends. -/
theorem result_eq (h : Claiming o t taken rest) (hended : rest.result?.isSome) :
    t.assignee ≠ none ∧ rest.result? =
      some (if taken then .ok { task := t } else .error (held (some t))) := by
  cases h with
  | begins => cases hended
  | writes => cases hended
  | loses _ => cases hended
  | looks _ => cases hended
  | refused hheld => exact ⟨hheld, rfl⟩
  | wins hheld hrest =>
    refine ⟨by rw [hheld]; simp, ?_⟩
    cases rest with
    | done transition =>
      obtain rfl : transition = { task := t } := hrest
      rfl
    | fail f => exact hrest.elim
    | ask r next => cases hended

variable {s : Session} {r : Request} {next : r.Answer → Dialogue Transition}

/-- A claim goes on when its next request is answered. -/
theorem turn (h : Claiming o t taken (.ask r next)) (hs : s.Settled) (ht : o.task? s = some t)
    (hrole : o.actor.holdsRole t.role) (hname : t.assignee ≠ some "") :
    ∃ t', o.task? (o.answer r s).2 = some t' ∧
      o.Took t t' (⟨r, (o.answer r s).1⟩ : Exchange).takes ∧
      Claiming o t' (taken || (⟨r, (o.answer r s).1⟩ : Exchange).takes)
        (.resume next (o.answer r s).1) := by
  generalize hask : Dialogue.ask r next = rest at h
  cases h with
  -- The task is read: if it is free, the claim goes on to the write, else it is refused.
  | begins =>
    cases hask
    rw [o.answer_read hs, ht]
    refine ⟨t, rfl, .nothing, ?_⟩
    show Claiming o t false (claimOf o.actor t)
    by_cases hfree : t.assignee = none
    · rw [claimOf_of_canClaim (AccessContext.canClaim_iff.2 ⟨by rw [hfree]; rfl, hrole⟩)]
      exact .writes
    · have hheld : t.assignee.getD "" ≠ "" := by
        obtain ⟨user, huser⟩ := Option.ne_none_iff_exists'.1 hfree
        rw [huser] at hname ⊢
        exact fun hempty => hname (congrArg some hempty)
      rw [claimOf_of_held hrole hheld]
      exact .refused hfree
  -- The write: it applies exactly if the task is still free.
  | writes =>
    cases hask
    rw [o.answer_write hs, ht]
    dsimp only
    by_cases hfree : t.assignee = none
    · have happlies : (Write.claim (some o.actor.user)).applies t :=
        Option.isNone_iff_eq_none.2 hfree
      rw [if_pos happlies]
      refine ⟨_, ?_, .task hfree s.now.bare, .wins rfl ⟨trivial, fun _ => ⟨trivial, fun _ => rfl⟩⟩⟩
      rw [Order.task?, Session.task?_alter fun _ hu => Write.isOf_apply _ _ hu, if_pos ⟨rfl, rfl⟩,
        show s.task? o.task o.actor.org = some t from ht]
      rfl
    · have hnot : ¬ (Write.claim (some o.actor.user)).applies t := fun h =>
        hfree (Option.isNone_iff_eq_none.1 h)
      rw [if_neg hnot]
      exact ⟨t, ht, .nothing, .loses hfree⟩
  -- The claim has lost, and looks whether the task is there, and then who has it.
  | loses hheld =>
    cases hask
    rw [o.answer_isThere hs, ht]
    exact ⟨t, rfl, .nothing, .looks hheld⟩
  | looks hheld =>
    cases hask
    rw [o.answer_read hs, ht]
    exact ⟨t, rfl, .nothing, .refused hheld⟩
  | refused hheld => cases hask
  -- The claim has won; what it asks for behind its write spares the rows, so the task stays as it
  -- was taken.
  | wins hheld hrest =>
    subst hask
    obtain ⟨a, ha⟩ := Order.exists_answer_of_spares (o := o) (s := s) hrest.1
    rw [Exchange.takes_of_spares hrest.1, ha]
    refine ⟨t, ?_, .nothing, .wins hheld (hrest.2 a)⟩
    rw [Order.task?, (Order.same_answer_of_spares hs hrest.1).task?]
    exact ht

end Claiming

-- ============================================================================
-- All claims
-- ============================================================================

namespace Office

variable {f : Office} {s : Session} {id org : String} {t u : Task}

/-- Whether an operation has taken its task. -/
def took (f : Office) (i : Nat) : Bool := (f.log i).any Exchange.takes

/-- All that is asked for about the task with an id in an organization are claims, by different
users who hold a role. -/
structure Contest (id org : String) (role : Option String) (f : Office) : Prop where
  claims : ∀ {i o}, f.order? i = some o → o.isOn id org → o.operation = .claim
  entitled : ∀ {i o}, f.order? i = some o → o.isOn id org → o.actor.holdsRole role
  named : ∀ {i o}, f.order? i = some o → o.isOn id org → o.actor.user ≠ ""
  different : ∀ {i j o o'}, f.order? i = some o → f.order? j = some o' → o.isOn id org →
    o'.isOn id org →
    o.actor.user = o'.actor.user → i = j

/-- What is a contest after a move was one before. -/
theorem Contest.of_move {role : Option String} {m : Move} (h : Contest id org role (f.move m)) :
    Contest id org role f where
  claims ho := h.claims (order?_move ho m)
  entitled ho := h.entitled (order?_move ho m)
  named ho := h.named (order?_move ho m)
  different ho ho' := h.different (order?_move ho m) (order?_move ho' m)

/-- What is a contest after some moves was one before. -/
theorem Contest.of_play {role : Option String} (moves : List Move)
    (h : Contest id org role (f.play moves)) :
    Contest id org role f := by
  induction moves generalizing f with
  | nil => exact h
  | cons m rest ih => exact (ih h).of_move

theorem order?_of_parties {i : Nat} {p : Party} (hp : f.parties[i]? = some p) :
    f.order? i = some p.order := by
  rw [order?, hp]
  rfl

/-- By a turn only the party whose turn it was can have taken the task. -/
theorem took_turn {index : Nat} {o : Order} {r : Request} {next : r.Answer → Dialogue Transition}
    (hparty : f.parties[index]? = some ⟨o, .ask r next⟩) (i : Nat) :
    (f.turn index).took i =
      if index = i then f.took i || (⟨r, (o.answer r f.session).1⟩ : Exchange).takes
        else f.took i := by
  rw [took, log_turn hparty]
  split
  · rw [List.any_append, List.any_cons, List.any_nil, Bool.or_false]
    rfl
  · rfl

/-- After a turn there is the one whose turn it was, gone on, and everybody else. -/
theorem party_turn {index i : Nat} {o : Order} {r : Request}
    {next : r.Answer → Dialogue Transition} {p : Party}
    (hparty : f.parties[index]? = some ⟨o, .ask r next⟩)
    (hp : (f.turn index).parties[i]? = some p) :
    index = i ∧ p = ⟨o, .resume next (o.answer r f.session).1⟩ ∨ index ≠ i ∧
      f.parties[i]? = some p := by
  rw [parties_turn hparty] at hp
  by_cases hi : index = i
  · subst hi
    rw [List.getElem?_set_self (List.getElem?_eq_some_iff.1 hparty).1] at hp
    exact .inl ⟨rfl, (Option.some.inj hp).symm⟩
  · rw [List.getElem?_set_ne hi] at hp
    exact .inr ⟨hi, hp⟩

/-- How it is with the task with an id in an organization, which was `t` before it was claimed and
is `u` now, and with all claims of it. -/
structure Contested (id org : String) (t : Task) (f : Office) (u : Task) : Prop where
  row : f.session.task? id org = some u
  same : u = { t with assignee := u.assignee, updated := u.updated }
  named : u.assignee ≠ some ""
  claiming : ∀ (i : Nat) (p : Party), f.parties[i]? = some p → p.order.isOn id org →
    Claiming p.order u (f.took i) p.rest
  holder : ∀ user, u.assignee = some user →
    ∃ i o, f.order? i = some o ∧ o.isOn id org ∧ o.actor.user = user ∧ f.took i

namespace Contested

/-- At the beginning nobody has claimed, and the task is as it is found. -/
theorem opened {s : Session} (ht : (Office.opened s).session.task? id org = some t)
    (hfree : t.assignee = none) : Contested id org t (Office.opened s) t where
  row := ht
  same := rfl
  named := by rw [hfree]; simp
  claiming _ _ hp := by cases hp
  holder user huser := by rw [hfree] at huser; cases huser

theorem role_eq (h : Contested id org t f u) : u.role = t.role := by
  rw [h.same]

theorem status_eq (h : Contested id org t f u) : u.status = t.status := by
  rw [h.same]

/-- What happens without any of the operations, and leaves the task as it is. -/
theorem step (h : Contested id org t f u) {m : Move} (hparties : (f.move m).parties = f.parties)
    (hhistory : (f.move m).history = f.history) (hrow : (f.move m).session.task? id org = some u) :
    Contested id org t (f.move m) u where
  row := hrow
  same := h.same
  named := h.named
  claiming i p hp hon := by
    rw [hparties] at hp
    rw [took, log, hhistory]
    exact h.claiming i p hp hon
  holder user huser := by
    obtain ⟨i, o, ho, hon, hname, htook⟩ := h.holder user huser
    refine ⟨i, o, order?_move ho m, hon, hname, ?_⟩
    rw [took, log, hhistory]
    exact htook

/-- The arrival of another claim leaves the contest undecided or decided as it was. -/
theorem arrive (h : Contested id org t f u) (hproper : f.Proper s) {o : Order}
    (hcontest : Contest id org t.role (f.move (.arrive o))) :
    Contested id org t (f.move (.arrive o)) u where
  row := h.row
  same := h.same
  named := h.named
  claiming i p hp hon := by
    have horder := order?_of_parties hp
    have hp : (f.parties ++ [⟨o, o.dialogue⟩])[i]? = some p := hp
    show Claiming p.order u (f.took i) p.rest
    -- The parties that were there are where they were; the new one has still to begin.
    rcases Nat.lt_or_ge i f.parties.length with hlt | hge
    · rw [List.getElem?_append_left hlt] at hp
      exact h.claiming i p hp hon
    · have hlast : i = f.parties.length := by
        have hbound := (List.getElem?_eq_some_iff.1 hp).1
        rw [List.length_append, List.length_singleton] at hbound
        omega
      subst hlast
      rw [List.getElem?_concat_length] at hp
      cases hp
      -- It has had no turn, so it has taken nothing.
      have hnew : f.took f.parties.length = false := by
        rw [took, log_eq_nil hproper.known]
        rfl
      -- It is a claim, as all parties on this task are.
      have hclaim : o.dialogue = load >>= claimOf o.actor := by
        rw [Order.dialogue, hcontest.claims horder hon]
        exact claim_eq_load o.actor
      show Claiming o u (f.took f.parties.length) o.dialogue
      rw [hnew, hclaim]
      exact .begins
  holder user huser := by
    obtain ⟨i, o', ho, hon, hname, htook⟩ := h.holder user huser
    exact ⟨i, o', order?_move ho _, hon, hname, htook⟩

section Turn

variable {index : Nat} {o : Order} {r : Request} {next : r.Answer → Dialogue Transition}

/-- A turn of somebody who is busy with another task. -/
theorem turn_off (h : Contested id org t f u) (hproper : f.Proper s)
    (hparty : f.parties[index]? = some ⟨o, .ask r next⟩) (hoff : ¬ o.isOn id org) :
    Contested id org t (f.turn index) u where
  row := by
    rw [session_turn hparty, o.task?_answer_of_not_isOn hproper.settled hoff]
    exact h.row
  same := h.same
  named := h.named
  claiming i p hp hon := by
    rw [took_turn hparty]
    -- The party whose turn it was is on another task; all others are where they were.
    obtain ⟨-, rfl⟩ | ⟨hi, hp⟩ := party_turn hparty hp
    · exact absurd hon hoff
    · rw [if_neg hi]
      exact h.claiming i p hp hon
  holder user huser := by
    obtain ⟨i, o', ho, hon, hname, htook⟩ := h.holder user huser
    refine ⟨i, o', (f.order?_turn index i).trans ho, hon, hname, ?_⟩
    rw [took_turn hparty]
    split
    · rw [htook, Bool.true_or]
    · exact htook

/-- A turn of a claim of the task. -/
theorem turn_on (h : Contested id org t f u) (hproper : f.Proper s)
    (hcontest : Contest id org t.role f)
    (hparty : f.parties[index]? = some ⟨o, .ask r next⟩) (hon : o.isOn id org) :
    ∃ u', Contested id org t (f.turn index) u' ∧ (u.assignee ≠ none → u' = u) := by
  -- The party claims this task, and its actor holds the role.
  have horder : f.order? index = some o := order?_of_parties hparty
  have hrole : o.actor.holdsRole u.role := by
    rw [h.role_eq]
    exact hcontest.entitled horder hon
  obtain ⟨hid, horg⟩ := Order.isOn_iff.1 hon
  have hrow : o.task? f.session = some u := by
    rw [Order.task?, ← hid, ← horg]
    exact h.row
  -- What its turn does, to the row and to its own claim.
  obtain ⟨u', hrow', htook, hgoes⟩ :=
    (h.claiming index _ hparty hon).turn hproper.settled hrow hrole h.named
  have hflag := took_turn hparty
  generalize (⟨r, (o.answer r f.session).1⟩ : Exchange).takes = takes at htook hgoes hflag
  refine ⟨u', ⟨?row, ?same, ?named, ?claiming, ?holder⟩, ?stays⟩
  case row =>
    rw [session_turn hparty, hid, horg]
    exact hrow'
  case same =>
    -- The row is as it was, or is this actor's now.
    cases htook with
    | nothing => exact h.same
    | task hfree moment => rw [h.same]; rfl
  case named =>
    cases htook with
    | nothing => exact h.named
    | task hfree moment => exact fun hempty => hcontest.named horder hon (Option.some.inj hempty)
  case claiming =>
    intro i p hp hon'
    rw [hflag]
    -- The party whose turn it was has gone on; for the others the row may have been taken.
    obtain ⟨rfl, rfl⟩ | ⟨hi, hp⟩ := party_turn hparty hp
    · rw [if_pos rfl]
      exact hgoes
    · rw [if_neg hi]
      exact (h.claiming i p hp hon').of_took htook
  case holder =>
    intro user huser
    -- Whoever has the task took it before, or has taken it by this turn.
    cases htook with
    | nothing =>
      obtain ⟨i, o', ho, hon', hname, htaken⟩ := h.holder user huser
      refine ⟨i, o', (f.order?_turn index i).trans ho, hon', hname, ?_⟩
      rw [hflag]
      split
      · rw [htaken, Bool.true_or]
      · exact htaken
    | task hfree moment =>
      refine ⟨index, o, (f.order?_turn index index).trans horder, hon, Option.some.inj huser, ?_⟩
      rw [hflag, if_pos rfl, Bool.or_true]
  -- A task that somebody has is not taken again.
  case stays =>
    intro hheld
    cases htook with
    | nothing => rfl
    | task hfree moment => exact absurd hfree hheld

end Turn

/-- Whatever happens next, a task that somebody has stays as it is. -/
theorem move (h : Contested id org t f u) (hproper : f.Proper s) {m : Move}
    (hcontest : Contest id org t.role (f.move m)) :
    ∃ u', Contested id org t (f.move m) u' ∧ (u.assignee ≠ none → u' = u) := by
  -- The arrival of an operation, or its next turn.
  cases m with
  | arrive o => exact ⟨u, h.arrive hproper hcontest, fun _ => rfl⟩
  | turn index =>
    obtain heq | ⟨o, r, next, hparty⟩ := f.turn_eq_or index
    · refine ⟨u, ?_, fun _ => rfl⟩
      show Contested id org t (f.turn index) u
      rwa [heq]
    · by_cases hon : o.isOn id org
      · exact h.turn_on hproper hcontest.of_move hparty hon
      · exact ⟨u, h.turn_off hproper hparty hon, fun _ => rfl⟩
  -- The passing of time, trouble with services, and tasks that are created leave the row as it is.
  | tick now => exact ⟨u, h.step rfl rfl h.row, fun _ => rfl⟩
  | disturb trouble => exact ⟨u, h.step rfl rfl h.row, fun _ => rfl⟩
  | create params =>
    have hcreated := (moves_activity params).transact hproper.settled
    exact ⟨u, h.step rfl rfl (task?_of_arriving hcreated.2.1 h.row), fun _ => rfl⟩

/-- Whatever happens, a task that somebody has stays as it is. -/
theorem play (h : Contested id org t f u) (hproper : f.Proper s) (moves : List Move)
    (hcontest : Contest id org t.role (f.play moves)) :
    ∃ u', Contested id org t (f.play moves) u' ∧ (u.assignee ≠ none → u' = u) := by
  induction moves generalizing f u with
  | nil => exact ⟨u, h, fun _ => rfl⟩
  | cons m rest ih =>
    have hnext : Contest id org t.role (f.move m) := hcontest.of_play rest
    obtain ⟨u', h', hstays⟩ := h.move hproper hnext
    obtain ⟨u'', h'', hstays'⟩ := ih h' (hproper.move m) hcontest
    refine ⟨u'', h'', fun hheld => ?_⟩
    obtain rfl := hstays hheld
    exact hstays' hheld

end Contested

-- ============================================================================
-- One claimant
-- ============================================================================

/-- What is so of the task with an id in an organization, which was `t` before it was claimed, and
of all claims of it. -/
structure OneClaimant (id org : String) (t : Task) (f : Office) : Prop where
  /-- Nothing of the task changes but who has it and the time of the last change. -/
  row : ∃ u, f.session.task? id org = some u ∧
    u = { t with assignee := u.assignee, updated := u.updated }
  /-- The task is with the claimant whose write has applied, and with nobody else. -/
  holder : ∀ i o, f.order? i = some o → o.isOn id org →
    (f.took i ↔ ∃ u, f.session.task? id org = some u ∧ u.assignee = some o.actor.user)
  /-- Once somebody has the task, nothing of it changes any more. -/
  stays : ∀ more, Contest id org t.role (f.play more) → ∀ u, f.session.task? id org = some u →
    u.assignee ≠ none → (f.play more).session.task? id org = some u
  /-- When all claims have ended, exactly one has succeeded, with the task as it is; it is with that
  claimant, and everybody else has been told so. -/
  decided : (∀ (i : Nat) (p : Party), f.parties[i]? = some p → p.order.isOn id org →
    p.rest.result?.isSome) →
    (∃ i o, f.order? i = some o ∧ o.isOn id org) →
      ∃ i p u, f.parties[i]? = some p ∧ p.order.isOn id org ∧ f.session.task? id org = some u ∧
        u.assignee = some p.order.actor.user ∧ p.rest.result? = some (.ok { task := u }) ∧
        ∀ (j : Nat) (q : Party), f.parties[j]? = some q → q.order.isOn id org → j ≠ i →
          q.rest.result? = some (.error (.conflict {
            message := "Task already claimed by another user", status := some t.status,
            assignee := some p.order.actor.user }))
  /-- Every claim comes to an end, given eight more turns. -/
  ends : ∀ (i : Nat) (p : Party), f.parties[i]? = some p →
    ∃ p', (f.play (List.replicate 8 (.turn i))).parties[i]? = some p' ∧ p'.order = p.order ∧
      p'.rest.result?.isSome

namespace Contested

/-- A claim has taken the task exactly if the task is its actor's. -/
theorem took_iff (h : Contested id org t f u) (hcontest : Contest id org t.role f)
    {i : Nat} {p : Party}
    (hp : f.parties[i]? = some p) (hon : p.order.isOn id org) :
    f.took i ↔ u.assignee = some p.order.actor.user := by
  have hclaiming := h.claiming i p hp hon
  constructor
  · intro htook
    rw [htook] at hclaiming
    exact hclaiming.assignee_eq
  · intro huser
    obtain ⟨j, o, ho, hon', hname, htook⟩ := h.holder _ huser
    rwa [hcontest.different (order?_of_parties hp) ho hon hon' hname.symm]

/-- When all claims have ended, one has succeeded, and the others have been told whose the task
is. -/
theorem decided (h : Contested id org t f u) (hcontest : Contest id org t.role f)
    (hended : ∀ (i : Nat) (p : Party), f.parties[i]? = some p → p.order.isOn id org →
      p.rest.result?.isSome)
    (hclaim : ∃ i o, f.order? i = some o ∧ o.isOn id org) :
    ∃ i p, f.parties[i]? = some p ∧ p.order.isOn id org ∧ u.assignee = some p.order.actor.user ∧
      p.rest.result? = some (.ok { task := u }) ∧
      ∀ (j : Nat) (q : Party), f.parties[j]? = some q → q.order.isOn id org → j ≠ i →
        q.rest.result? = some (.error (held (some u))) := by
  have hparty : ∀ {i o}, f.order? i = some o → ∃ p, f.parties[i]? = some p ∧
    p.order = o := fun ho =>
    Option.map_eq_some_iff.1 ho
  obtain ⟨i, o, ho, hon⟩ := hclaim
  obtain ⟨p, hp, rfl⟩ := hparty ho
  -- One of the claims is over, so the task is somebody's, and that somebody has claimed it.
  obtain ⟨hheld, -⟩ := (h.claiming i p hp hon).result_eq (hended i p hp hon)
  obtain ⟨user, huser⟩ := Option.ne_none_iff_exists'.1 hheld
  obtain ⟨i, o, ho, hon, rfl, htook⟩ := h.holder user huser
  obtain ⟨p, hp, rfl⟩ := hparty ho
  refine ⟨i, p, hp, hon, huser, ?_, fun j q hq hon' hne => ?_⟩
  -- The claim that took it has succeeded.
  · obtain ⟨-, hresult⟩ := (h.claiming i p hp hon).result_eq (hended i p hp hon)
    rwa [htook, if_pos rfl] at hresult
  · obtain ⟨-, hresult⟩ := (h.claiming j q hq hon').result_eq (hended j q hq hon')
    -- Every other claim has another actor, so it has not.
    have hnot : f.took j = false := by
      rw [Bool.eq_false_iff, Ne, h.took_iff hcontest hq hon', huser]
      intro hsame
      exact hne (hcontest.different (order?_of_parties hq) (order?_of_parties hp) hon' hon
        (Option.some.inj hsame).symm)
    rwa [hnot, if_neg Bool.false_ne_true] at hresult

end Contested

/-- Of all claims of a task that nobody has, exactly one succeeds; the task stays with that
claimant, and everybody else is told so. -/
theorem oneClaimant_play {s : Session} (ht : (opened s).session.task? id org = some t)
    (hfree : t.assignee = none) (moves : List Move)
    (hcontest : Contest id org t.role ((opened s).play moves)) :
    ((opened s).play moves).OneClaimant id org t := by
  have hproper := (Proper.opened s).play moves
  obtain ⟨u, h, -⟩ := (Contested.opened ht hfree).play (Proper.opened s) moves hcontest
  refine ⟨⟨u, h.row, h.same⟩, ?_, ?_, ?_, ?_⟩
  -- A claim took the task exactly if the task is its actor's in the row.
  · intro i o ho hon
    obtain ⟨p, hp, rfl⟩ := Option.map_eq_some_iff.1 ho
    rw [h.took_iff hcontest hp hon]
    constructor
    · exact fun huser => ⟨u, h.row, huser⟩
    · rintro ⟨u', hu', huser⟩
      obtain rfl : u' = u := Option.some.inj (hu'.symm.trans h.row)
      exact huser
  -- However it goes on, a task that is taken stays so.
  · intro more hmore u' hu' hheld
    obtain rfl : u' = u := Option.some.inj (hu'.symm.trans h.row)
    obtain ⟨u'', h'', hstays⟩ := h.play hproper more hmore
    rw [h''.row, hstays hheld]
  -- When all claims are over, the one that took the task has won, and the others tell who has it.
  · intro hended hclaim
    obtain ⟨i, p, hp, hon, huser, hresult, hothers⟩ := h.decided hcontest hended hclaim
    refine ⟨i, p, u, hp, hon, h.row, huser, hresult, fun j q hq hon' hne => ?_⟩
    rw [hothers j q hq hon' hne, held, Option.map_some, Option.bind_some, h.status_eq, huser]
  · exact fun i p hp => result_of_turns hp (hproper.course i p hp).within

theorem contest_of_orders {role : Option String} {orders : List Order}
    (horders : f.parties.map Party.order = orders)
    (hclaims : ∀ o ∈ orders, o.operation = .claim ∧ o.actor.holdsRole role ∧ o.actor.user ≠ "")
    (hdifferent : (orders.map fun o => o.actor.user).Nodup) : Contest id org role f := by
  have horder : ∀ {i o}, f.order? i = some o → orders[i]? = some o := fun ho => by
    rw [← horders, List.getElem?_map]
    exact ho
  have hmem : ∀ {i o}, f.order? i = some o → o ∈ orders :=
    fun ho => List.mem_of_getElem? (horder ho)
  refine ⟨fun ho _ => (hclaims _ (hmem ho)).1, fun ho _ => (hclaims _ (hmem ho)).2.1,
    fun ho _ => (hclaims _ (hmem ho)).2.2, fun {i j o o'} ho ho' _ _ hsame => ?_⟩
  have hi : i < (orders.map fun o => o.actor.user).length := by
    rw [List.length_map]
    exact (List.getElem?_eq_some_iff.1 (horder ho)).1
  refine (List.getElem?_inj hi hdifferent).1 ?_
  rw [List.getElem?_map, List.getElem?_map, horder ho, horder ho', Option.map_some,
    Option.map_some, hsame]

/-- Somebody who holds the role claims the first task. -/
def claimingAs (user : String) : Order :=
  { claiming with actor := .build user "org" none false [some "support"] }

/-- Both look at the task while nobody has it, and who came later writes first. -/
def claimants : List Move := [
  .arrive (claimingAs "ann"), .arrive (claimingAs "bob"),
  .turn 0, .turn 1, .turn 1, .turn 0, .turn 0, .turn 0, .turn 1, .turn 1]

theorem oneClaimant_claimants :
    ∃ t, (opened ((opened emptyStore).play forSupport).session).session.task? "task-1"
      "org" = some t ∧
      t.assignee = none ∧
      Contest "task-1" "org" t.role
      ((opened ((opened emptyStore).play forSupport).session).play claimants) ∧
      ((opened ((opened emptyStore).play forSupport).session).play claimants).OneClaimant
        "task-1" "org" t ∧
      ((opened ((opened emptyStore).play forSupport).session).play claimants).parties.map
        (fun p => p.rest.result?.map Except.isOk) = [some false, some true] := by
  obtain ⟨t, ht, hfree, hrole⟩ : ∃ t,
    (opened ((opened emptyStore).play forSupport).session).session.task?
      "task-1" "org" = some t ∧ t.assignee = none ∧ t.role = some "support" :=
    ⟨_, rfl, by rfl, by rfl⟩
  have hcontest : Contest "task-1" "org" t.role
      ((opened ((opened emptyStore).play forSupport).session).play claimants) := by
    have horders : ((opened ((opened emptyStore).play forSupport).session).play
      claimants).parties.map
        Party.order = [claimingAs "ann", claimingAs "bob"] := rfl
    rw [hrole]
    refine contest_of_orders horders ?_ (by decide)
    rw [List.forall_mem_cons, List.forall_mem_singleton]
    exact ⟨⟨rfl, by decide +kernel⟩, rfl, by decide +kernel⟩
  exact ⟨t, ht, hfree, hcontest, oneClaimant_play ht hfree claimants hcontest, by decide +kernel⟩

end Office
end Casework.Task
