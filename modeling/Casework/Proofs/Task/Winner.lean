/-
  Casework.Proofs.Task.Winner

  One winner for each task. Of all operations on a task at most one marks it as done, because no
  write to its status applies to a task that is done. Only that operation tells the run of it, and
  all others learn how the task was done.
-/
import Casework.Proofs.Task.Office

namespace Casework

namespace Task

open Dialogue (Log)

-- ============================================================================
-- One request
-- ============================================================================

/-- Whether an order is about the task with an id in an organization. -/
def Order.isOn (o : Order) (id org : String) : Bool := o.task == id && o.actor.org == org

/-- After a change of one row, the tasks done are those done before and the changed one if it is. -/
theorem isDone_alter {s : Session} {id org : String} {f : Task → Task}
    (hf : ∀ t : Task, Record.isOf id org t → Record.isOf id org (f t)) (id' org' : String) :
    (s.alter id org f).isDone id' org' =
      if id' = id ∧ org' = org then (s.task? id org).any (fun t => (f t).isDone)
      else s.isDone id' org' := by
  rw [Session.isDone, Session.task?_alter hf]
  split
  · cases s.task? id org <;> rfl
  · rfl

/-- A write that marks a task as done applies to open tasks only, and no other write does it. -/
theorem Write.isDone_apply {w : Write} {t : Task} (happlies : w.applies t) (hsafe : w.Safe t)
    (moment : Moment) (t' : Task) :
    (w.apply moment t).isDone.toNat = t.isDone.toNat +
      (⟨.write w, .ok (some t')⟩ : Exchange).finishes.toNat := by
  cases w with
  | claim user => rfl
  | complete =>
    have hopen : t.isDone = false := by simpa [applies] using happlies
    rw [hopen]
    rfl
  | decide outcome comment =>
    have hopen : t.isDone = false ∧ t.isApproval := by simpa [applies] using happlies
    rw [hopen.1]
    -- An outcome makes an approval done, and the write applies to no task done before.
    rfl
  | setOpen status =>
    have hopen : t.isDone = false := by simpa [applies] using happlies
    have hstatus : status ≠ done := hsafe
    have hopen' : ((setOpen status).apply moment t).isDone = false := beq_eq_false_iff_ne.2 hstatus
    rw [hopen, hopen']
    rfl

/-- No new task is done. -/
theorem isDone_of_arriving {s s' : Session} (h : arriving.rel s.working s'.working)
    (id org : String) : s'.isDone id org = s.isDone id org := by
  obtain ⟨-, ⟨new, hnew, hall⟩, -⟩ := h
  rw [Session.isDone, Session.isDone, Session.task?, Session.task?, hnew, List.find?_append]
  cases s.working.tasks.find? (Record.isOf id org) with
  | some t => rfl
  | none =>
    rw [Option.none_or]
    cases ht : new.find? (Record.isOf id org) with
    | none => rfl
    | some t =>
      rw [Option.any_some, isDone, (hall t (List.mem_of_find?_eq_some ht)).status]
      rfl

namespace Order

variable {o : Order} {s : Session}

/-- An operation is on a task exactly when both its id and its organization match. -/
theorem isOn_iff {id org : String} : o.isOn id org ↔ id = o.task ∧ org = o.actor.org := by
  rw [isOn, Bool.and_eq_true, beq_iff_eq, beq_iff_eq, eq_comm, @eq_comm _ o.actor.org]

/-- A write makes one more task done exactly when it finishes the task. -/
theorem isDone_answer_write (hs : s.Settled) {w : Write} (hsafe : o.Safe s (.write w))
    (id org : String) :
    ((o.answer (.write w) s).2.isDone id org).toNat = (s.isDone id org).toNat +
      ((⟨.write w, (o.answer (.write w) s).1⟩ : Exchange).finishes && o.isOn id org).toNat := by
  rw [o.answer_write hs]
  cases ht : o.task? s with
  | none => cases w <;> rfl
  | some t =>
    simp only
    by_cases happlies : w.applies t
    · rw [if_pos happlies, isDone_alter fun u hu => w.isOf_apply _ hu]
      -- Only the row the operation is on can change.
      by_cases hon : id = o.task ∧ org = o.actor.org
      · obtain ⟨rfl, rfl⟩ := hon
        rw [Order.task?] at ht
        rw [if_pos ⟨rfl, rfl⟩, isOn_iff.2 ⟨rfl, rfl⟩, Bool.and_true, Session.isDone, ht]
        exact w.isDone_apply happlies (hsafe t ht happlies) _ _
      · have hoff : o.isOn id org = false := Bool.eq_false_iff.2 fun h => hon (isOn_iff.1 h)
        rw [if_neg hon, hoff, Bool.and_false]
        rfl
    · rw [if_neg happlies]
      cases w <;> rfl

/-- New values of fields do not mark a task as done. -/
theorem isDone_answer_update (hs : s.Settled) (given : Fields) (id org : String) :
    (o.answer (.update given) s).2.isDone id org = s.isDone id org := by
  rw [o.answer_update hs]
  cases ht : o.task? s with
  | none => rfl
  | some t =>
    simp only
    cases Changes.ofFields given with
    | error f => rfl
    | ok c =>
      have hid : Record.isOf o.task o.actor.org t := List.find?_some ht
      rw [Order.task?] at ht
      simp only
      rw [isDone_alter (f := fun _ => (c.apply s.now t).bare) fun _ _ => hid]
      split
      case isTrue hon =>
        obtain ⟨rfl, rfl⟩ := hon
        rw [Session.isDone, ht]
        rfl
      case isFalse => rfl

/-- A task gets done by a request that marks it as done, and only where it was open. -/
theorem isDone_answer (hs : s.Settled) {r : Request} (hsafe : o.Safe s r) (id org : String) :
    ((o.answer r s).2.isDone id org).toNat = (s.isDone id org).toNat +
      ((⟨r, (o.answer r s).1⟩ : Exchange).finishes && o.isOn id org).toNat := by
  cases r with
  | write w => exact isDone_answer_write hs hsafe id org
  | update given =>
    rw [isDone_answer_update hs]
    rfl
  | _ =>
    rw [Session.isDone, (o.same_answer hs (by simp) (by simp)).task?]
    rfl

end Order

-- ============================================================================
-- Who finished a task
-- ============================================================================

namespace Office

variable {f : Office} {s : Session} {id org : String}

/-- What somebody has asked for, by index. -/
def order? (f : Office) (i : Nat) : Option Order := (f.parties[i]?).map Party.order

/-- An entry of the history marks the task with an id in an organization as done. -/
def finishesAt (f : Office) (id org : String) (entry : Nat × Exchange) : Bool :=
  entry.2.finishes && (f.order? entry.1).any fun o => o.isOn id org

/-- The operations that marked the task with an id in an organization as done, in the order of
time. -/
def finishers (f : Office) (id org : String) : List Nat :=
  (f.history.filter (f.finishesAt id org)).map Prod.fst

/-- The task was marked as done once if it is done now and was not before, and never otherwise. -/
def FinishedOnce (s : Session) (f : Office) (id org : String) : Prop :=
  (f.session.isDone id org).toNat = (s.isDone id org).toNat + (f.finishers id org).length

/-- An operation that arrives has finished nothing. -/
theorem finishers_arrive (h : f.Proper s) (o : Order) :
    (f.move (.arrive o)).finishers id org = f.finishers id org := by
  refine congrArg (List.map Prod.fst) (List.filter_congr fun entry hentry => ?_)
  rw [finishesAt, finishesAt, order?, order?]
  show (_ && (Option.map _ (f.parties ++ [_])[entry.1]?).any _) = _
  rw [List.getElem?_append_left (h.known entry hentry)]

/-- A turn adds its party to those who finished the task exactly when its answer says so. -/
theorem finishers_turn {index : Nat} {o : Order} {r : Request}
    {next : r.Answer → Dialogue Transition} (hparty : f.parties[index]? = some ⟨o, .ask r next⟩) :
    (f.turn index).finishers id org = f.finishers id org ++
      if (⟨r, (o.answer r f.session).1⟩ : Exchange).finishes &&
        o.isOn id org then [index] else [] := by
  have hlast : f.order? index = some o := by
    rw [order?, hparty]
    rfl
  -- A turn changes what a party has left to do, never what it was asked to do.
  have horder : ∀ i, (f.turn index).order? i = f.order? i := by
    intro i
    rw [order?, parties_turn hparty]
    by_cases hi : index = i
    · subst hi
      rw [List.getElem?_set_self (List.getElem?_eq_some_iff.1 hparty).1, hlast]
      rfl
    · rw [List.getElem?_set_ne hi, order?]
  have hat : (f.turn index).finishesAt id org = f.finishesAt id org :=
    funext fun entry => by rw [finishesAt, finishesAt, horder]
  rw [finishers, hat, history_turn hparty, List.filter_append, List.map_append, finishers]
  congr 1
  rw [List.filter_cons, List.filter_nil, finishesAt, hlast, Option.any_some]
  split <;> rfl

/-- A turn keeps the count of those who finished the task in step with its state. -/
theorem FinishedOnce.turn (hproper : f.Proper s) (h : FinishedOnce s f id org) (index : Nat) :
    FinishedOnce s (f.turn index) id org := by
  obtain heq | ⟨o, r, next, hparty⟩ := f.turn_eq_or index
  · rw [heq]
    exact h
  · have hsafe := (hproper.course index _ hparty).safe hproper.settled
    rw [FinishedOnce, session_turn hparty, o.isDone_answer hproper.settled hsafe, h,
      finishers_turn hparty, List.length_append, Nat.add_assoc]
    split
    case isTrue htrue => rw [htrue]; rfl
    case isFalse hfalse => rw [Bool.eq_false_iff.2 hfalse]; rfl

/-- One more thing that happens marks a task as done only if it was open. -/
theorem FinishedOnce.move (hproper : f.Proper s) (h : FinishedOnce s f id org) (m : Move) :
    FinishedOnce s (f.move m) id org := by
  cases m with
  | arrive o =>
    rw [FinishedOnce, finishers_arrive hproper]
    exact h
  | turn index => exact h.turn hproper index
  | tick now => exact h
  | disturb trouble => exact h
  | create params =>
    have hsession := (moves_activity params).transact hproper.settled
    have hdone : (f.move (.create params)).session.isDone id org = f.session.isDone id org :=
      isDone_of_arriving hsession.2.1 id org
    rw [FinishedOnce, hdone]
    exact h

/-- A party finished the task exactly when its log holds the write that did. -/
theorem mem_finishers {i : Nat} {p : Party} (hp : f.parties[i]? = some p)
    (hon : p.order.isOn id org) :
    i ∈ f.finishers id org ↔ ∃ e ∈ f.log i, e.finishes := by
  have horder : f.order? i = some p.order := by
    rw [order?, hp]
    rfl
  rw [finishers, List.mem_map]
  constructor
  · rintro ⟨⟨j, e⟩, hentry, rfl⟩
    obtain ⟨hentry, hat⟩ := List.mem_filter.1 hentry
    rw [finishesAt, Bool.and_eq_true] at hat
    exact ⟨e, List.mem_filterMap.2 ⟨(j, e), hentry, if_pos rfl⟩, hat.1⟩
  · rintro ⟨e, he, hfinishes⟩
    obtain ⟨⟨j, e'⟩, hentry, hsome⟩ := List.mem_filterMap.1 he
    -- An entry of another party is none of this log.
    by_cases hj : j = i
    · subst hj
      rw [if_pos rfl] at hsome
      cases hsome
      refine ⟨(j, e'), List.mem_filter.2 ⟨hentry, ?_⟩, rfl⟩
      rw [finishesAt, hfinishes, horder, Option.any_some, hon]
      rfl
    · rw [if_neg hj] at hsome
      cases hsome

-- ============================================================================
-- Ends
-- ============================================================================

/-- Whoever is given enough turns comes to an end. -/
theorem result_of_turns {n i : Nat} {p : Party} (hp : f.parties[i]? = some p)
    (hwithin : p.rest.Within n) :
    ∃ p', (f.play (List.replicate n (.turn i))).parties[i]? = some p' ∧
      p'.order = p.order ∧ p'.rest.result?.isSome := by
  induction n generalizing f p with
  | zero =>
    refine ⟨p, hp, rfl, ?_⟩
    rcases p with ⟨o, a | e | ⟨r, next⟩⟩
    · rfl
    · rfl
    · cases hwithin
  | succ n ih =>
    have hi := (List.getElem?_eq_some_iff.1 hp).1
    rcases p with ⟨o, a | e | ⟨r, next⟩⟩
    -- A dialogue that has ended stays as it is at every further turn.
    · have hturn : f.turn i = f := by rw [turn, hp]
      obtain ⟨p', hp', horder, hresult⟩ := ih hp (.done a)
      exact ⟨p', by rw [List.replicate_succ, play, List.foldl_cons, move, hturn]; exact hp', horder,
        hresult⟩
    · have hturn : f.turn i = f := by rw [turn, hp]
      obtain ⟨p', hp', horder, hresult⟩ := ih hp (.fail e)
      exact ⟨p', by rw [List.replicate_succ, play, List.foldl_cons, move, hturn]; exact hp', horder,
        hresult⟩
    · have hnext : (f.turn i).parties[i]? = some ⟨o, .resume next (o.answer r f.session).1⟩ := by
        rw [turn, hp]
        exact List.getElem?_set_self hi
      -- An answer of the store takes one step off the bound, and a fault ends the dialogue.
      have hrest : (Dialogue.resume next (o.answer r f.session).1).Within n := by
        cases (o.answer r f.session).1 with
        | ok a => exact hwithin a
        | error e => exact .fail e
      obtain ⟨p', hp', horder, hresult⟩ := ih hnext hrest
      exact ⟨p', hp', horder, hresult⟩

-- ============================================================================
-- One winner
-- ============================================================================

/-- What is so of the task with an id in an organization and of all operations on it. -/
structure OneWinner (s : Session) (id org : String) (f : Office) : Prop where
  /-- The task was marked as done by one operation if it is done now and was not before. -/
  once : (f.session.isDone id org).toNat =
    (s.isDone id org).toNat + (f.finishers id org).length
  /-- Nobody else marks it as done. -/
  unique : (f.finishers id org).length ≤ 1
  /-- Who sends anything has marked the task as done before, and sends the messages about the task
  as it is stored, in their order, to the run of its execution. -/
  sender : ∀ (i : Nat) (p : Party), f.parties[i]? = some p → p.order.isOn id org →
    (f.log i).signals ≠ [] →
      i ∈ f.finishers id org ∧ p.order.Won (f.log i).signals (f.log i) f.session ∧
        (f.log i).signals <+: p.order.messages f.session
  /-- Who has marked the task as done succeeds, and has sent all of these messages then. -/
  winner : ∀ (i : Nat) (p : Party) (result : Except Failure Transition),
    f.parties[i]? = some p → p.order.isOn id org → i ∈ f.finishers id org →
    p.rest.result? = some result →
      (∃ tr, result = .ok tr) ∧ p.order.Won (p.order.messages f.session) (f.log i) f.session
  /-- Who has asked for anything about a task that was there has looked at it first. -/
  looked : ∀ (i : Nat) (p : Party) (t : Task), s.task? id org = some t →
    f.parties[i]? = some p → p.order.isOn id org → f.log i ≠ [] →
      ∃ t', (f.log i).seen? = some t' ∧ t.Kept t'
  /-- Any other decision that passes its checks learns how the task was done. -/
  conflict : ∀ (i : Nat) (p : Party) (decision : Lifecycle.Decision) (given : Json) (t : Task)
    (result : Except Failure Transition),
    f.parties[i]? = some p → p.order.isOn id org → i ∉ f.finishers id org →
    p.order.operation = .conclude decision given →
    (f.log i).seen? = some t → p.order.MayConclude given t f.session →
    p.rest.result? = some result →
      ∃ t', f.session.task? id org = some t' ∧ t'.isDone ∧
        result = .error (.conflict {
          message := "Task already completed", status := some done, outcome := t'.outcome })
  /-- Any other attempt to mark a standard task as done succeeds, and nobody is told. -/
  idle : ∀ (i : Nat) (p : Party) (status : Json) (t : Task) (result : Except Failure Transition),
    f.parties[i]? = some p → p.order.isOn id org → i ∉ f.finishers id org →
    p.order.operation = .setStatus status → status.text? = some done →
    (f.log i).seen? = some t → p.order.actor.canMutate t.assignment → t.isApproval = false →
    p.rest.result? = some result →
      (∃ tr, result = .ok tr ∧ tr.signaled = false ∧ tr.task.isDone) ∧ (f.log i).signals = []
  /-- Every operation comes to an end, given eight more turns. -/
  ends : ∀ (i : Nat) (p : Party), f.parties[i]? = some p →
    ∃ p', (f.play (List.replicate 8 (.turn i))).parties[i]? = some p' ∧ p'.order = p.order ∧
      p'.rest.result?.isSome

/-- The one who finished the task succeeds, having sent all the row calls for. -/
theorem Proper.won_of_finisher (h : f.Proper s) {i : Nat} {p : Party}
    (hp : f.parties[i]? = some p) (hon : p.order.isOn id org) (hi : i ∈ f.finishers id org)
    {result : Except Failure Transition} (hresult : p.rest.result? = some result) :
    (∃ tr, result = .ok tr) ∧ p.order.Won (p.order.messages f.session) (f.log i) f.session := by
  obtain ⟨e, he, hfinishes⟩ := (mem_finishers hp hon).1 hi
  have hbusy : ¬ (f.log i).Idle := fun hidle => by
    rw [(hidle e he).finishes] at hfinishes
    cases hfinishes
  have hended := (h.course i p hp).ended hresult
  unfold Order.Ended at hended
  split at hended
  · exact ⟨⟨_, rfl⟩, hended⟩
  · exact absurd hended.1 hbusy
  · exact hended.elim (fun hwon => ⟨⟨_, rfl⟩, hwon⟩) fun hidle => absurd hidle.1 hbusy
  · exact absurd hended.1 hbusy
  · exact absurd hended hbusy

/-- An operation that has won is among those who finished the task. -/
theorem mem_finishers_of_won {i : Nat} {p : Party} {sent : List (String × Signal)}
    (hp : f.parties[i]? = some p) (hon : p.order.isOn id org)
    (h : p.order.Won sent (f.log i) f.session) : i ∈ f.finishers id org :=
  (mem_finishers hp hon).2 h.log.exists_mem

/-- A decision that came too late is answered with the outcome of the one before. -/
theorem Proper.conflict_of_loser (h : f.Proper s) {i : Nat} {p : Party}
    {decision : Lifecycle.Decision} {given : Json} {t : Task} {result : Except Failure Transition}
    (hp : f.parties[i]? = some p) (hon : p.order.isOn id org) (hi : i ∉ f.finishers id org)
    (hoperation : p.order.operation = .conclude decision given)
    (hseen : (f.log i).seen? = some t) (hmay : p.order.MayConclude given t f.session)
    (hresult : p.rest.result? = some result) :
    ∃ t', f.session.task? id org = some t' ∧ t'.isDone ∧
      result = .error (.conflict {
        message := "Task already completed", status := some done, outcome := t'.outcome }) := by
  have hended := (h.course i p hp).ended hresult
  unfold Order.Ended at hended
  rw [hoperation] at hended
  cases result with
  | ok tr => exact absurd (mem_finishers_of_won hp hon hended) hi
  | error e =>
    obtain ⟨t', ht', hdone, rfl⟩ := hended.2 t hseen hmay
    obtain ⟨rfl, rfl⟩ := Order.isOn_iff.1 hon
    exact ⟨t', ht', hdone, by rw [Lifecycle.late, beq_iff_eq.1 hdone]⟩

/-- A completion that came too late succeeds and tells nobody. -/
theorem Proper.idle_of_loser (h : f.Proper s) {i : Nat} {p : Party} {status : Json} {t : Task}
    {result : Except Failure Transition} (hp : f.parties[i]? = some p)
    (hon : p.order.isOn id org) (hi : i ∉ f.finishers id org)
    (hoperation : p.order.operation = .setStatus status) (hstatus : status.text? = some done)
    (hseen : (f.log i).seen? = some t) (hmutate : p.order.actor.canMutate t.assignment)
    (hkind : t.isApproval = false) (hresult : p.rest.result? = some result) :
    (∃ tr, result = .ok tr ∧ tr.signaled = false ∧ tr.task.isDone) ∧ (f.log i).signals = [] := by
  have hended := (h.course i p hp).ended hresult
  unfold Order.Ended at hended
  rw [hoperation] at hended
  cases result with
  | ok tr =>
    obtain hwon | ⟨hidle, hsignaled, hdone⟩ := hended
    · exact absurd (mem_finishers_of_won hp hon hwon) hi
    · exact ⟨⟨tr, rfl, hsignaled, hdone hstatus⟩, hidle.signals_eq⟩
  | error e =>
    have happroval := hended.2 t hseen hstatus hmutate
    rw [hkind] at happroval
    cases happroval

/-- Of all operations on a task at most one marks it as done, and it alone tells the run; decisions
that come too late fail with the outcome that is stored, and marking as done again changes
nothing. -/
theorem oneWinner_play (s : Session) (id org : String) (moves : List Move) :
    ((opened s).play moves).OneWinner (opened s).session id org := by
  have hproper := (Proper.opened s).play moves
  have honce : FinishedOnce (opened s).session ((opened s).play moves) id org :=
    (Proper.opened s).invariant (P := fun f => FinishedOnce (opened s).session f id org)
      (fun _ m hproper h => h.move hproper m) rfl moves
  refine ⟨honce, ?_, ?_, ?_, ?_, ?_, ?_, ?_⟩
  · have hnow := Bool.toNat_le (((opened s).play moves).session.isDone id org)
    rw [FinishedOnce] at honce
    omega
  -- Whoever sent anything had won before, so it is among those who finished.
  · intro i p hp hon hsent
    rcases (hproper.course i p hp).conducted with hidle | ⟨sent, hwon, hprefix⟩
    · exact absurd hidle.signals_eq hsent
    · rw [hwon.log.signals_eq]
      exact ⟨mem_finishers_of_won hp hon hwon, hwon, hprefix⟩
  · intro i p result hp hon hi hresult
    exact hproper.won_of_finisher hp hon hi hresult
  · intro i p t ht hp hon hlog
    obtain ⟨rfl, rfl⟩ := Order.isOn_iff.1 hon
    exact (hproper.course i p hp).exists_seen ht hlog
  · intro i p decision given t result hp hon hi hoperation hseen hmay hresult
    exact hproper.conflict_of_loser hp hon hi hoperation hseen hmay hresult
  · intro i p status t result hp hon hi hoperation hstatus hseen hmutate hkind hresult
    exact hproper.idle_of_loser hp hon hi hoperation hstatus hseen hmutate hkind hresult
  · exact fun i p hp => result_of_turns hp (hproper.course i p hp).within

/-- The decision of the one who read the task first and wrote last. -/
example :
    (((opened emptyStore).play (rivals ++ [.turn 0])).parties[0]?.bind fun p => p.rest.result?) =
    some (.error (.conflict {
      message := "Task already completed", status := some done, outcome := some "rejected" })) := by
  rfl

end Office
end Task
end Casework
