/-
  Casework.Proofs.Task.PreviousStatus

  Which status the audit trail gives as the previous one. An operation that sets the status of a
  task looks at the task, then writes to it, and in the end has an entry made of both statuses. The
  previous status of the entry is the one that the operation has seen; what its write replaces is
  the status that the task has by then. The two differ exactly if others gave the task a status in
  between, and left it with another one.
-/
import Casework.Proofs.Task.Claimant
import Casework.Proofs.Task.Phases
import Mathlib.Data.List.TakeWhile

namespace Casework.Task

open Store Lifecycle Dialogue

-- ============================================================================
-- Statuses
-- ============================================================================

/-- The status that a write gives a task, if it gives it any. -/
def Write.status? : Write → Option String
  | .claim _ => none
  | .complete | .decide _ _ => some done
  | .setOpen status => some status

theorem Write.status_apply (w : Write) (moment : Moment) (t : Task) :
    (w.apply moment t).status = w.status?.getD t.status := by
  cases w <;> rfl

/-- The status that an exchange gave its task, if it gave it any. -/
def Exchange.status? : Exchange → Option String
  | ⟨.write w, .ok (some _)⟩ => w.status?
  | _ => none

theorem Exchange.status?_of_spares {r : Request} (h : r.Spares) (answer : Except Failure r.Answer) :
    (⟨r, answer⟩ : Exchange).status? = none := by
  cases r with
  | write w => exact h.elim
  | _ => rfl

section Answers

variable {o : Order} {s : Session} {r : Request} {t : Task}

/-- After the answer to a request a task has the status that the exchange gave it, or else the one
that it had. -/
theorem Order.status_answer (other : Order) (r : Request) (hs : s.Settled)
    (ht : o.task? s = some t) :
    ∃ t', o.task? (other.answer r s).2 = some t' ∧ t'.status =
      (if other.isOn o.task o.actor.org then (⟨r, (other.answer r s).1⟩ : Exchange).status?
        else none).getD t.status := by
  -- An operation on another task leaves this row alone, whatever it asks.
  by_cases hon : other.isOn o.task o.actor.org
  case neg =>
    rw [if_neg hon]
    exact ⟨t, (other.task?_answer_of_not_isOn hs hon).trans ht, rfl⟩
  rw [if_pos hon]
  cases r with
  | write w =>
    rcases other.answer_write_cases hs w with heq | ⟨u, hu, happlies, heq⟩
    · rw [heq]
      exact ⟨t, ht, rfl⟩
    · rw [heq]
      -- The write has altered a row with the id of the task, which is the row of the task.
      rcases Order.task?_alter (fun v hv => w.isOf_apply s.now.bare hv) ht hu with
        ⟨-, hoff⟩ | ⟨hfound, rfl, -⟩
      · exact absurd hon hoff
      · exact ⟨_, hfound, w.status_apply _ _⟩
  | update given =>
    rcases other.answer_update_cases hs given with heq | ⟨u, c, hu, heq⟩
    · rw [heq]
      exact ⟨t, ht, rfl⟩
    -- The changed row keeps the id it was found by.
    · have hid : Record.isOf other.task other.actor.org u := List.find?_some hu
      rw [heq]
      rcases Order.task?_alter (f := fun _ => (c.apply s.now u).bare) (fun _ _ => hid) ht hu with
        ⟨-, hoff⟩ | ⟨hfound, rfl, -⟩
      · exact absurd hon hoff
      · exact ⟨_, hfound, rfl⟩
  | _ =>
    refine ⟨t, ?_, rfl⟩
    rw [Order.task?, (other.same_answer hs (by simp) (by simp)).task?]
    exact ht

/-- Nothing comes into the audit trail unless an entry is asked for. -/
theorem Order.audit_answer (hs : s.Settled) (h : r.logs = false) :
    (o.answer r s).2.working.audit = s.working.audit := by
  cases r with
  | read => rw [o.answer_read hs]
  | isThere => rw [o.answer_isThere hs]
  | commit => rw [o.answer_commit hs]
  | execution id => rw [o.answer_execution hs]
  | write w =>
    rcases o.answer_write_cases hs w with heq | ⟨u, -, -, heq⟩
    · rw [heq]
    · rw [heq]
      rfl
  | update given =>
    rcases o.answer_update_cases hs given with heq | ⟨u, c, -, heq⟩
    · rw [heq]
    · rw [heq]
      rfl
  | signal workflow m =>
    -- A notice that cannot be filed is swallowed, and one that is filed leaves the audit log alone.
    rw [o.answer_signal hs]
    split <;> rfl
  | tell user title =>
    have htold : Moves (.keeping Records.audit)
        (Store.tellAssigned (.text o.actor.org) user o.task title (some o.actor.user)) :=
      moves_tellAssigned (fun _ _ _ => rfl) _ _ _ _
    have hmoves : Moves (.keeping Records.audit)
        (Task.answer o.reach o.task o.actor (.tell user title)) :=
      .ite (.tryCatch htold fun _ => .pure _) (.pure _)
    exact (hmoves.transact hs).2.1
  | log action details => cases h

/-- An entry that is asked for comes into the audit trail as it is asked for, or not at all. -/
theorem Order.audit_answer_log (hs : s.Settled) (action : String) (details : Json) :
    (o.answer (.log action details) s).2.working.audit = s.working.audit ∨
      (o.answer (.log action details) s).2.working.audit = s.working.audit ++
        [s.entry o.actor.org (some o.actor.user) "task" o.task action details] := by
  rw [Order.answer, Task.answer]
  split
  case isFalse => exact .inl rfl
  case isTrue =>
    obtain ⟨working, hrecord, hworking⟩ :=
      result_record o.actor.org (some o.actor.user) "task" o.task action details s
    rw [transact_eq, hrecord]
    rcases hworking with rfl | ⟨-, rfl⟩
    · exact .inl (congrArg Records.audit hs.symm)
    · exact .inr rfl

end Answers

-- ============================================================================
-- What is asked for
-- ============================================================================

/-- Requests after a status was set: others hear of it, and the entry of the audit trail gives the
status before and the one after. -/
def Request.Reports (before after : String) : Request → Prop
  | .commit | .execution _ | .signal _ _ => True
  | .log action details => action = "status_changed" ∧ details = statusChange before after
  | _ => False

namespace Request

variable {r : Request} {before after : String}

theorem Announces.reports (h : r.Announces) : r.Reports before after := by
  cases r with
  | execution id => trivial
  | signal workflow m => trivial
  | _ => exact h.elim

theorem Reports.spares (h : r.Reports before after) : r.Spares := by
  cases r with
  | write w => exact h
  | update given => exact h
  | _ => trivial

end Request

/-- What is left of an operation that sets the status of a task is to write, once it has seen the
task with a status `before`. If the write does not apply, nothing is reported. -/
def Dialogue.Sets (before : String) : Dialogue Transition → Prop
  | .done _ | .fail _ => True
  | .ask (.write w) next => (next none).Only Request.Looks ∧
      ∃ after, w.status? = some after ∧ ∀ t, (next (some t)).Only (Request.Reports before after)
  | .ask _ _ => False

/-- An operation that sets the status of a task looks at the task first. -/
def Dialogue.SetsSeen : Dialogue Transition → Prop
  | .done _ | .fail _ => True
  | .ask .read next => (next none).Only Request.Looks ∧ ∀ t, (next (some t)).Sets t.status
  | .ask _ _ => False

theorem Dialogue.Sets.require {c : Bool} {f : Failure} {before : String}
    {next : Unit → Dialogue Transition}
    (h : (next ()).Sets before) : (Dialogue.require c f >>= next).Sets before := by
  cases c with
  | true => exact h
  | false => trivial

theorem Dialogue.SetsSeen.require {c : Bool} {f : Failure} {next : Unit → Dialogue Transition}
    (h : (next ()).SetsSeen) : (Dialogue.require c f >>= next).SetsSeen := by
  cases c with
  | true => exact h
  | false => trivial

theorem Dialogue.SetsSeen.load {next : Task → Dialogue Transition}
    (h : ∀ t, (next t).Sets t.status) :
    (Lifecycle.load >>= next).SetsSeen := ⟨trivial, h⟩

theorem sets_finish (actor : AccessContext) (id before : String) :
    (finish actor id before).Sets before := by
  refine ⟨.load trivial fun _ => trivial, done, rfl, fun t => ?_⟩
  exact .request trivial fun _ =>
    .bind (only_announce (fun _ => Request.Announces.reports) t _) fun _ =>
    .request ⟨rfl, rfl⟩ fun _ => trivial

theorem sets_reopen (before after : String) : (reopen before after).Sets before :=
  ⟨.load trivial fun _ => trivial, after, rfl, fun _ =>
    .request trivial fun _ => .request ⟨rfl, rfl⟩ fun _ => trivial⟩

theorem setsSeen_setStatus (actor : AccessContext) (id : String) (status : Json) :
    (setStatus actor id status).SetsSeen := by
  refine .require (.load fun t => .require (.require ?_))
  split
  · exact sets_finish actor id t.status
  · exact .require (sets_reopen t.status _)

theorem Order.setsSeen {o : Order} {status : Json} (h : o.operation = .setStatus status) :
    o.dialogue.SetsSeen := by
  rw [dialogue, h]
  exact setsSeen_setStatus _ _ _

namespace Office

variable {f : Office} {s : Session}

-- ============================================================================
-- Since an operation looked
-- ============================================================================

/-- What happened since an operation looked at its task, from the look on. -/
def since (f : Office) (i : Nat) : List (Nat × Exchange) := f.history.dropWhile (·.1 != i)

/-- The status that an entry of the history gave the task with an id in an organization, if it gave
it any. -/
def statusAt (f : Office) (id org : String) (entry : Nat × Exchange) : Option String :=
  if (f.order? entry.1).any (·.isOn id org) then entry.2.status? else none

/-- The statuses that the task with an id in an organization was given since an operation looked, in
the order of time. -/
def statusesSince (f : Office) (i : Nat) (id org : String) : List String :=
  (f.since i).filterMap (f.statusAt id org)

/-- A status that comes last is the last one. -/
theorem getLast?_append_getD (statuses : List String) (last : Option String) (status : String) :
    (statuses ++ last.toList).getLast?.getD status = last.getD (statuses.getLast?.getD status) := by
  cases last <;> simp

section Turn

variable {index i : Nat} {o : Order} {r : Request} {next : r.Answer → Dialogue Transition}

theorem statusAt_turn (index : Nat) (id org : String) :
    (f.turn index).statusAt id org = f.statusAt id org :=
  funext fun _ => by rw [statusAt, statusAt, order?_turn]

/-- For an operation that has looked before, a turn is one more thing that has happened since. -/
theorem statusesSince_turn (hparty : f.parties[index]? = some ⟨o, .ask r next⟩)
    (hlog : f.log i ≠ [])
    (id org : String) : (f.turn index).statusesSince i id org = f.statusesSince i id org ++
      (if o.isOn id org then (⟨r, (o.answer r f.session).1⟩ : Exchange).status?
        else none).toList := by
  obtain ⟨entry, hentry, rfl⟩ := exists_entry hlog
  have hnonempty : (f.history.dropWhile (·.1 != entry.1)).isEmpty = false := by
    rw [List.isEmpty_eq_false_iff, Ne, List.dropWhile_eq_nil_iff]
    exact fun hall => absurd (hall entry hentry) (by simp)
  have hsince : (f.turn index).since entry.1 =
      f.since entry.1 ++ [(index, ⟨r, (o.answer r f.session).1⟩)] := by
    rw [since, history_turn hparty, List.dropWhile_append, hnonempty]
    rfl
  have hlast : f.statusAt id org (index, ⟨r, (o.answer r f.session).1⟩) =
      if o.isOn id org then (⟨r, (o.answer r f.session).1⟩ : Exchange).status? else none := by
    rw [statusAt, order?_of_parties hparty, Option.any_some]
  rw [statusesSince, hsince, statusAt_turn, List.filterMap_append, statusesSince, ← hlast]
  rfl

/-- For an operation that looks for the first time, nothing has happened since. -/
theorem statusesSince_turn_first {next : Option Task → Dialogue Transition}
    (hparty : f.parties[index]? = some ⟨o, .ask .read next⟩) (hlog : f.log index = [])
    (id org : String) :
    (f.turn index).statusesSince index id org = [] := by
  have hother : ∀ entry ∈ f.history, (entry.1 != index) = true := fun entry hentry => by
    refine bne_iff_ne.2 fun heq => ?_
    have hnone := List.filterMap_eq_nil_iff.1 hlog entry hentry
    rw [if_pos heq] at hnone
    cases hnone
  have hsince : (f.turn index).since index = [(index, ⟨.read, (o.answer .read f.session).1⟩)] := by
    rw [since, history_turn hparty, List.dropWhile_append_of_pos hother]
    simp
  rw [statusesSince, hsince, statusAt_turn]
  simp [statusAt, Exchange.status?]

end Turn

/-- Whoever has seen a task finds it with the status that it was given last since then, or else with
the one that they have seen. -/
def Tracked (f : Office) : Prop :=
  ∀ i o t, f.order? i = some o → (f.log i).seen? = some t → ∃ t', o.task? f.session = some t' ∧
    t'.status = (f.statusesSince i o.task o.actor.org).getLast?.getD t.status

namespace Tracked

theorem turn (h : f.Tracked) (hproper : f.Proper s) (index : Nat) : (f.turn index).Tracked := by
  obtain heq | ⟨o, r, next, hparty⟩ := f.turn_eq_or index
  · rw [heq]
    exact h
  intro i other t ho hseen
  rw [order?_turn] at ho
  rw [session_turn hparty]
  rw [log_turn hparty] at hseen
  by_cases hlog : f.log i = []
  · -- The task is looked at for the first time.
    by_cases hi : index = i
    case neg =>
      rw [if_neg hi, hlog] at hseen
      cases hseen
    subst hi
    obtain rfl : o = other := Option.some.inj ((order?_of_parties hparty).symm.trans ho)
    obtain rfl : r = .read := by
      obtain ⟨-, hlooks⟩ | ⟨hbegun, -⟩ := (hproper.course index _ hparty).looked
      · exact hlooks
      · exact absurd hlog hbegun
    rw [if_pos rfl, hlog, o.answer_read hproper.settled] at hseen
    rw [statusesSince_turn_first hparty hlog, o.answer_read hproper.settled]
    exact ⟨t, hseen, rfl⟩
  -- The task was looked at before this turn, so the first look is what it was.
  · have hseen : (f.log i).seen? = some t := by
      split at hseen
      · rw [Log.seen?_append hlog] at hseen
        exact hseen
      · exact hseen
    obtain ⟨t', ht', hstatus⟩ := h i other t ho hseen
    obtain ⟨t'', ht'', hnow⟩ := Order.status_answer o r hproper.settled ht'
    refine ⟨t'', ht'', ?_⟩
    rw [hnow, hstatus, statusesSince_turn hparty hlog, getLast?_append_getD]

theorem arrive (h : f.Tracked) (hproper : f.Proper s) (o : Order) :
    (f.move (.arrive o)).Tracked := by
  intro i other t ho hseen
  have hseen : (f.log i).seen? = some t := hseen
  have hlt : i < f.parties.length := by
    obtain ⟨entry, hentry, rfl⟩ := exists_entry (Log.ne_nil_of_seen? hseen)
    exact hproper.known entry hentry
  rw [order?_arrive hlt] at ho
  obtain ⟨t', ht', hstatus⟩ := h i other t ho hseen
  refine ⟨t', ht', hstatus.trans ?_⟩
  have hsame : (f.move (.arrive o)).statusesSince i other.task other.actor.org =
      f.statusesSince i other.task other.actor.org := by
    refine List.filterMap_congr fun entry hentry => ?_
    have hknown := hproper.known entry ((List.dropWhile_sublist _).subset hentry)
    rw [statusAt, statusAt, order?_arrive hknown]
  rw [hsame]

/-- One more thing that happens gives a task the status that is counted. -/
theorem move (h : f.Tracked) (hproper : f.Proper s) (m : Move) : (f.move m).Tracked := by
  cases m with
  | arrive o => exact h.arrive hproper o
  | turn index => exact h.turn hproper index
  | tick now => exact h
  | disturb trouble => exact h
  | create params =>
    intro i o t ho hseen
    obtain ⟨t', ht', hstatus⟩ := h i o t ho hseen
    have hcreated := (moves_activity params).transact hproper.settled
    exact ⟨t', task?_of_arriving hcreated.2.1 ht', hstatus⟩

theorem play (s : Session) (moves : List Move) : ((opened s).play moves).Tracked :=
  (Proper.opened s).invariant (fun _ m hproper h => h.move hproper m)
    (fun _ _ _ ho => by cases ho) moves

end Tracked

-- ============================================================================
-- One operation that sets the status
-- ============================================================================

/-- What becomes of an operation when one more thing happens: nothing, or it arrives, or it has its
next request answered. -/
theorem party_move (hproper : f.Proper s) {m : Move} {i : Nat} {p : Party}
    (hp : (f.move m).parties[i]? = some p) :
    (f.parties[i]? = some p ∧ (f.move m).log i = f.log i) ∨
      (p.rest = p.order.dialogue ∧ (f.move m).log i = []) ∨
      ∃ o r next, m = .turn i ∧ f.parties[i]? = some ⟨o, .ask r next⟩ ∧
        p = ⟨o, .resume next (o.answer r f.session).1⟩ ∧
        (f.move m).log i = f.log i ++ [⟨r, (o.answer r f.session).1⟩] := by
  cases m with
  | arrive o =>
    -- A party that arrives is the last of all and has said nothing.
    have hp : (f.parties ++ [⟨o, o.dialogue⟩])[i]? = some p := hp
    rcases Nat.lt_or_ge i f.parties.length with hlt | hge
    · rw [List.getElem?_append_left hlt] at hp
      exact .inl ⟨hp, rfl⟩
    · rw [List.getElem?_append_right hge] at hp
      obtain rfl := List.mem_singleton.1 (List.mem_of_getElem? hp)
      refine .inr (.inl ⟨rfl, log_eq_nil fun entry hentry => ?_⟩)
      exact Nat.lt_of_lt_of_le (hproper.known entry hentry) hge
  | turn index =>
    obtain heq | ⟨o, r, next, hparty⟩ := f.turn_eq_or index
    · have heq : f.move (.turn index) = f := heq
      rw [heq] at hp ⊢
      exact .inl ⟨hp, rfl⟩
    · have hlog := log_turn hparty i
      -- Only the party at the turn goes on; the others and their logs stay as they are.
      obtain ⟨rfl, rfl⟩ | ⟨hi, hp⟩ := party_turn hparty hp
      · rw [if_pos rfl] at hlog
        exact .inr (.inr ⟨o, r, next, rfl, hparty, rfl, hlog⟩)
      · rw [if_neg hi] at hlog
        exact .inl ⟨hp, hlog⟩
  | tick now => exact .inl ⟨hp, rfl⟩
  | disturb trouble => exact .inl ⟨hp, rfl⟩
  | create params => exact .inl ⟨hp, rfl⟩

/-- An operation is about to write to its task. It has seen the task as `seen`, it finds it as
`replaced`, and it leaves it as `written`. -/
structure Writes (f : Office) (i : Nat) (o : Order) (seen replaced written : Task) : Prop where
  asks : ∃ w next, f.parties[i]? = some ⟨o, .ask (.write w) next⟩ ∧
    (o.answer (.write w) f.session).1 = .ok (some written)
  seen : (f.log i).seen? = some seen
  replaced : o.task? f.session = some replaced

/-- Where an operation that sets the status of its task is, after all that happened. -/
inductive Stage (s : Session) (moves : List Move) (i : Nat) (p : Party) : Prop where
  /-- It has not looked at the task. -/
  | begins (hlog : ((opened s).play moves).log i = []) (hrest : p.rest.SetsSeen)
  /-- It is about to write, or has been refused. -/
  | checked {seen : Task} (hseen : (((opened s).play moves).log i).seen? = some seen)
    (hlog : (((opened s).play moves).log i).filterMap Exchange.status? = [])
      (hrest : p.rest.Sets seen.status)
  /-- It has not given the task a status, and will not. -/
  | refused (hrest : p.rest.Only Request.Looks)
  /-- It has given the task a status, in one write of its own. -/
  | wrote {earlier later : List Move} {seen replaced written : Task}
    (hmoves : moves = earlier ++ .turn i :: later)
    (hwrites : ((opened s).play earlier).Writes i p.order seen replaced written)
    (hlog : (((opened s).play moves).log i).filterMap Exchange.status? = [written.status])
    (hrest : p.rest.Only (Request.Reports seen.status written.status))

theorem play_concat (f : Office) (moves : List Move) (m : Move) :
    f.play (moves ++ [m]) = (f.play moves).move m := by
  rw [play, List.foldl_append]
  rfl

namespace Stage

variable {moves : List Move} {m : Move} {i : Nat} {p : Party}

/-- An operation stays where it is while others have their turns. -/
theorem stays (h : Stage s moves i p)
    (hlog : ((opened s).play (moves ++ [m])).log i = ((opened s).play moves).log i) :
    Stage s (moves ++ [m]) i p := by
  cases h with
  | begins hnil hrest => exact .begins (hlog.trans hnil) hrest
  | checked hseen hnone hrest => exact .checked (by rw [hlog, hseen]) (by rw [hlog, hnone]) hrest
  | refused hrest => exact .refused hrest
  | @wrote earlier later _ _ _ hmoves hwrites hown hrest =>
    have hlonger : moves ++ [m] = earlier ++ .turn i :: (later ++ [m]) := by
      rw [hmoves, List.append_assoc]
      rfl
    exact .wrote hlonger hwrites (by rw [hlog, hown]) hrest

theorem only_resume {q : Request → Prop} {r : Request} {next : r.Answer → Dialogue Transition}
    (h : (Dialogue.ask r next).Only q) (answer : Except Failure r.Answer) :
    (Dialogue.resume next answer).Only q := by
  cases answer with
  | ok a => exact h.2 a
  | error f => trivial

/-- An operation goes on when its next request is answered. -/
theorem turn {o : Order} {r : Request} {next : r.Answer → Dialogue Transition}
    (h : Stage s moves i ⟨o, .ask r next⟩)
    (hparty : ((opened s).play moves).parties[i]? = some ⟨o, .ask r next⟩)
    (hlog : ((opened s).play (moves ++ [.turn i])).log i =
      ((opened s).play moves).log i ++ [⟨r, (o.answer r ((opened s).play moves).session).1⟩]) :
    Stage s (moves ++ [.turn i]) i ⟨o,
      .resume next (o.answer r ((opened s).play moves).session).1⟩ := by
  have hsettled := ((Proper.opened s).play moves).settled
  cases h with
  | begins hnil hrest =>
    cases r with
    | read =>
      rw [hnil, o.answer_read hsettled] at hlog
      rw [o.answer_read hsettled]
      cases ht : o.task? ((opened s).play moves).session with
      | none => exact .refused hrest.1
      | some t =>
        rw [ht] at hlog
        have hseen : (((opened s).play (moves ++ [.turn i])).log i).seen? = some t := by
          rw [hlog]
          rfl
        exact .checked hseen (by rw [hlog]; rfl) (hrest.2 t)
    | _ => exact hrest.elim
  | @checked seen hseen hnone hrest =>
    cases r with
    | write w =>
      obtain ⟨hrefused, after, hafter, hreports⟩ := hrest
      rcases o.answer_write_cases hsettled w with heq | ⟨t, ht, happlies, heq⟩
      · rw [heq]
        exact .refused hrefused
      · rw [heq] at hlog ⊢
        have hstatus : (w.apply ((opened s).play moves).session.now.bare t).status = after := by
          rw [w.status_apply, hafter, Option.getD_some]
        -- From here on this is the write that the entry is going to be about.
        have hwrites : ((opened s).play moves).Writes i o seen t _ :=
          ⟨⟨w, next, hparty, congrArg Prod.fst heq⟩, hseen, ht⟩
        have hlast : moves ++ [.turn i] = moves ++ .turn i :: [] := rfl
        refine .wrote hlast hwrites ?_ ?_
        · rw [hlog, List.filterMap_append, hnone, hstatus]
          simp [Exchange.status?, hafter]
        · rw [hstatus]
          exact hreports _
    | _ => exact hrest.elim
  | refused hrest => exact .refused (only_resume hrest _)
  | @wrote earlier later _ _ _ hmoves hwrites hown hrest =>
    have hlonger : moves ++ [.turn i] = earlier ++ .turn i :: (later ++ [.turn i]) := by
      rw [hmoves, List.append_assoc]
      rfl
    refine .wrote hlonger hwrites ?_ (only_resume hrest _)
    rw [hlog, List.filterMap_append, hown]
    simp [Exchange.status?_of_spares hrest.1.spares]

/-- Whatever happens, an operation that sets the status of its task is at one of these stages. -/
theorem play (s : Session) (moves : List Move) {status : Json}
    (hp : ((opened s).play moves).parties[i]? = some p)
    (hoperation : p.order.operation = .setStatus status) :
    Stage s moves i p := by
  -- By induction from the end, since the stage only depends on what happened before.
  induction moves using List.reverseRecOn generalizing p with
  | nil => cases hp
  | append_singleton moves m ih =>
    have hproper := (Proper.opened s).play moves
    have hmove := play_concat (opened s) moves m
    rw [hmove] at hp
    rcases party_move hproper hp with
      ⟨hp, hlog⟩ | ⟨hrest, hlog⟩ | ⟨o, r, next, rfl, hparty, rfl, hlog⟩ <;> rw [← hmove] at hlog
    · exact (ih hp hoperation).stays hlog
    · exact .begins hlog (hrest ▸ Order.setsSeen hoperation)
    · exact (ih hparty hoperation).turn hparty hlog

/-- Only an operation that has set the status has an entry made, and it has the entry made of the
status that it has seen and of the one that it has set. -/
theorem entry_of_turn {o : Order} {status : Json} {e : AuditEntry}
    (ho : ((opened s).play moves).order? i = some o) (hoperation : o.operation = .setStatus status)
    (hentry : (((opened s).play moves).turn i).session.working.audit =
      ((opened s).play moves).session.working.audit ++ [e]) :
    ∃ earlier later seen replaced written, moves = earlier ++ .turn i :: later ∧
      ((opened s).play earlier).Writes i o seen replaced written ∧
      (((opened s).play moves).log i).filterMap Exchange.status? = [written.status] ∧
      e = ((opened s).play moves).session.entry o.actor.org (some o.actor.user) "task" o.task
        "status_changed" (statusChange seen.status written.status) := by
  have hsettled := ((Proper.opened s).play moves).settled
  obtain heq | ⟨o', r, next, hparty⟩ := ((opened s).play moves).turn_eq_or i
  · rw [heq] at hentry
    simp at hentry
  obtain rfl : o' = o := Option.some.inj ((order?_of_parties hparty).symm.trans ho)
  rw [session_turn hparty] at hentry
  -- The audit log has grown, so the request of this turn is an entry for it.
  have hlogs : r.logs = true := by
    rw [← Bool.not_eq_false]
    intro hno
    rw [Order.audit_answer hsettled hno] at hentry
    simp at hentry
  cases r with
  | log action details =>
    -- An entry is asked for in one stage only, the one after the write.
    cases Stage.play s moves hparty hoperation with
    | begins _ hrest => exact hrest.elim
    | checked _ _ hrest => exact hrest.elim
    | refused hrest => exact hrest.1.elim
    | wrote hmoves hwrites hown hrest =>
      obtain ⟨rfl, rfl⟩ := hrest.1
      refine ⟨_, _, _, _, _, hmoves, hwrites, hown, ?_⟩
      rcases Order.audit_answer_log (o := o') hsettled "status_changed" (statusChange _ _)
        with hno | hnew
      -- A refused entry would leave the audit log as it was.
      · rw [hno] at hentry
        simp at hentry
      · rw [hnew] at hentry
        exact (List.singleton_inj.1 (List.append_cancel_left hentry)).symm
  | _ => cases hlogs

end Stage

-- ============================================================================
-- Entries
-- ============================================================================

theorem statusChange_inj {before before' after : String} :
    statusChange before after = statusChange before' after ↔ before = before' := by
  refine ⟨fun h => ?_, fun h => congrArg (statusChange · after) h⟩
  cases h
  rfl

/-- The status that a write replaces is the one that was seen unless the task was given another one
since, and has it still. -/
theorem Writes.status_eq_iff {moves : List Move} {i : Nat} {o : Order}
    {seen replaced written : Task}
    (h : ((opened s).play moves).Writes i o seen replaced written) :
    seen.status = replaced.status ↔
      ∀ given ∈ (((opened s).play moves).statusesSince i o.task o.actor.org).getLast?,
        given = seen.status := by
  obtain ⟨w, next, hparty, -⟩ := h.asks
  obtain ⟨t, ht, hstatus⟩ := Tracked.play s moves i o seen (order?_of_parties hparty) h.seen
  obtain rfl : replaced = t := Option.some.inj (h.replaced.symm.trans ht)
  rw [hstatus]
  cases (((opened s).play moves).statusesSince i o.task o.actor.org).getLast? with
  | none => simp
  | some given => simp [eq_comm]

/-- Every entry that an operation has made of setting a status is about the one write by which it
did. It gives the status that the write has replaced exactly if no status was given to the task
between the look and the write, or the last of them was the one seen. -/
theorem entry_gives_replaced_iff (s : Session) (moves : List Move) {i : Nat} {o : Order}
    {status : Json}
    {e : AuditEntry} (ho : ((opened s).play moves).order? i = some o)
    (hoperation : o.operation = .setStatus status)
    (hentry : (((opened s).play moves).turn i).session.working.audit =
      ((opened s).play moves).session.working.audit ++ [e]) :
    ∃ earlier later seen replaced written, moves = earlier ++ .turn i :: later ∧
      ((opened s).play earlier).Writes i o seen replaced written ∧
      (((opened s).play moves).log i).filterMap Exchange.status? = [written.status] ∧
      e = ((opened s).play moves).session.entry o.actor.org (some o.actor.user) "task" o.task
        "status_changed" (statusChange seen.status written.status) ∧
      (e.details = statusChange replaced.status written.status ↔
        ∀ given ∈ (((opened s).play earlier).statusesSince i o.task o.actor.org).getLast?,
          given = seen.status) := by
  obtain ⟨earlier, later, seen, replaced, written, hmoves, hwrites, hown, rfl⟩ :=
    Stage.entry_of_turn ho hoperation hentry
  exact ⟨earlier, later, seen, replaced, written, hmoves, hwrites, hown, rfl,
    statusChange_inj.trans hwrites.status_eq_iff⟩

/-- An order of an administrator to set the status of the first task. -/
def setting (user status : String) : Order :=
  { deciding user "task-1" .approve with operation := .setStatus (.text status) }

/-- Ann and Bob look at a new task, and Bob starts it before Ann, who has looked first, marks it as
done. -/
def overtaken : List Move := [
  creatingFor [("type", .text "role"), ("role", .text "support")],
  .arrive (setting "ann" done), .arrive (setting "bob" "in_progress"),
  .turn 0, .turn 1, .turn 1]

/-- Ann's write replaces the status that Bob has set. -/
theorem exists_writes_overtaken :
    ∃ seen replaced written,
      ((opened emptyStore).play overtaken).Writes 0 (setting "ann" done) seen replaced written ∧
      replaced.status = "in_progress" ∧ written.status = done := by
  refine ⟨?_, ?_, ?_, ⟨⟨.complete, ?_, ?asks, ?answer⟩, ?seen, ?replaced⟩, ?_, ?_⟩
  case asks => rfl
  case answer => rfl
  case seen => rfl
  case replaced => rfl
  all_goals rfl

/-- The entry that Ann asks for next gives the status that she has seen. -/
theorem exists_entry_overtaken :
    ∃ e,
      (((opened emptyStore).play (overtaken ++ [.turn 0, .turn 0])).turn 0).session.working.audit =
        ((opened emptyStore).play (overtaken ++ [.turn 0, .turn 0])).session.working.audit ++ [e] ∧
      e.details = statusChange todo done :=
  ⟨_, rfl, rfl⟩

theorem entry_gives_seen_overtaken :
    ∃ e,
      (((opened emptyStore).play (overtaken ++ [.turn 0, .turn 0])).turn 0).session.working.audit =
        ((opened emptyStore).play (overtaken ++ [.turn 0, .turn 0])).session.working.audit ++ [e] ∧
      ∃ earlier later seen replaced written,
        overtaken ++ [.turn 0, .turn 0] = earlier ++ .turn 0 :: later ∧
        ((opened emptyStore).play earlier).Writes 0 (setting "ann" done) seen replaced written ∧
        e.details = statusChange seen.status written.status ∧
        (e.details = statusChange replaced.status written.status ↔
          ∀ given ∈ (((opened emptyStore).play earlier).statusesSince 0 "task-1" "org").getLast?,
            given = seen.status) := by
  obtain ⟨e, hentry, -⟩ := exists_entry_overtaken
  have ho : ((opened emptyStore).play (overtaken ++ [.turn 0, .turn 0])).order? 0 =
      some (setting "ann" done) := rfl
  obtain ⟨earlier, later, seen, replaced, written, hmoves, hwrites, -, he, hiff⟩ :=
    entry_gives_replaced_iff emptyStore _ ho rfl hentry
  exact ⟨e, hentry, earlier, later, seen, replaced, written, hmoves, hwrites,
    congrArg AuditEntry.details he, hiff⟩

/-- Among operations that set the status of one task there can be one whose entry does not give the
status that its write has replaced. -/
theorem not_all_entries_give_replaced :
    ¬ ∀ (earlier later : List Move) (i : Nat) (o : Order) (e : AuditEntry)
    (seen replaced written : Task),
      (∀ j o', ((opened emptyStore).play (earlier ++ .turn i :: later)).order? j = some o' →
        o'.isOn o.task o.actor.org ∧ ∃ status, o'.operation = .setStatus status) →
      ((opened emptyStore).play earlier).Writes i o seen replaced written →
      (((opened emptyStore).play (earlier ++ .turn i :: later)).turn i).session.working.audit =
        ((opened emptyStore).play (earlier ++ .turn i :: later)).session.working.audit ++ [e] →
      e.details = statusChange replaced.status written.status := by
  intro h
  obtain ⟨seen, replaced, written, hwrites, hreplaced, hwritten⟩ := exists_writes_overtaken
  obtain ⟨e, hentry, hdetails⟩ := exists_entry_overtaken
  have horders : ∀ j o',
    ((opened emptyStore).play (overtaken ++ [.turn 0, .turn 0])).order? j = some o' →
      o'.isOn "task-1" "org" ∧ ∃ status, o'.operation = .setStatus status := by
    -- The two parties of this office are known by evaluation.
    intro j o' ho
    have hall : ((opened emptyStore).play (overtaken ++ [.turn 0, .turn 0])).parties.map
      Party.order =
        [setting "ann" done, setting "bob" "in_progress"] := rfl
    have hmem : o' ∈ [setting "ann" done, setting "bob" "in_progress"] := by
      rw [← hall]
      refine List.mem_of_getElem? (i := j) ?_
      rw [List.getElem?_map]
      exact ho
    rcases List.mem_pair.1 hmem with rfl | rfl
    · exact ⟨rfl, _, rfl⟩
    · exact ⟨rfl, _, rfl⟩
  have hgives := h overtaken [.turn 0] 0
    (setting "ann" done) e seen replaced written horders hwrites hentry
  rw [hdetails, hreplaced, hwritten, statusChange_inj] at hgives
  revert hgives
  decide

end Office
end Casework.Task
