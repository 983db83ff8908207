/-
  Casework.Proofs.Task.Answer

  What the answer to a request does to the store. A session is later than another one if every row
  keeps what rows keep, and new rows are sound. Every answer leads to a later session, as long as
  conditional writes are only asked for where they may be.
-/
import Casework.Proofs.Store.Frame
import Casework.Proofs.Task.Row
import Casework.Proofs.Task.Turns

namespace Casework

open Store

/-- The task with an id in an organization, as a session sees it. -/
def Session.task? (s : Session) (id org : String) : Option Task :=
  s.working.tasks.find? (Record.isOf id org)

/-- A session sees what is committed. -/
def Session.Settled (s : Session) : Prop := s.working = s.committed

/-- What is seen after a transaction is committed. -/
theorem settled_transact {α : Type} (act : Tx α) (s : Session) : (transact act s).2.Settled := by
  rw [transact_eq]
  rcases result act s with ⟨answer | f, s'⟩ <;> rfl

/-- What is so at one moment and at a later one. -/
structure Session.Later (s s' : Session) : Prop where
  settled : s'.Settled
  kept : ∀ id org t, s.task? id org = some t → ∃ t', s'.task? id org = some t' ∧ t.Kept t'
  fresh : ∀ id org t', s.task? id org = none → s'.task? id org = some t' → t'.Sound
  executions : s'.working.executions = s.working.executions
  unique : (s.working.tasks.map Task.id).Nodup → (s'.working.tasks.map Task.id).Nodup

namespace Session.Later

variable {s s' s'' : Session}

/-- A session comes later than itself, if it is settled. -/
theorem refl (hs : s.Settled) : s.Later s where
  settled := hs
  kept _ _ t ht := ⟨t, ht, .refl t⟩
  fresh _ _ _ hnone hsome := by rw [hnone] at hsome; cases hsome
  executions := rfl
  unique h := h

/-- What comes later than a later session comes later. -/
theorem trans (h : s.Later s') (h' : s'.Later s'') : s.Later s'' where
  settled := h'.settled
  kept id org t ht := by
    obtain ⟨t', ht', hkept⟩ := h.kept id org t ht
    obtain ⟨t'', ht'', hkept'⟩ := h'.kept id org t' ht'
    exact ⟨t'', ht'', hkept.trans hkept'⟩
  fresh id org t'' hnone ht'' := by
    -- A task that is new in the last session may have been new in the middle one.
    cases hmiddle : s'.task? id org with
    | none => exact h'.fresh id org t'' hmiddle ht''
    | some t' =>
      obtain ⟨other, hother, hkept⟩ := h'.kept id org t' hmiddle
      rw [ht''] at hother
      cases hother
      exact hkept.sound (h.fresh id org t' hnone hmiddle)
  executions := h'.executions.trans h.executions
  unique hunique := h'.unique (h.unique hunique)

end Session.Later

/-- The tasks and the executions are the same as before. -/
structure Session.Same (s s' : Session) : Prop where
  settled : s'.Settled
  tasks : s'.working.tasks = s.working.tasks
  executions : s'.working.executions = s.working.executions

theorem Session.Same.refl {s : Session} (hs : s.Settled) : s.Same s := ⟨hs, rfl, rfl⟩

theorem Session.Same.task? {s s' : Session} (h : s.Same s') (id org : String) :
    s'.task? id org = s.task? id org := by
  rw [Session.task?, h.tasks]
  rfl

/-- A session with the same rows comes later. -/
theorem Session.Same.later {s s' : Session} (h : s.Same s') : s.Later s' where
  settled := h.settled
  kept id org t ht := ⟨t, by rw [h.task?]; exact ht, .refl t⟩
  fresh id org t' hnone hsome := by
    rw [h.task?, hnone] at hsome
    cases hsome
  executions := h.executions
  unique hunique := by rw [h.tasks]; exact hunique

-- ============================================================================
-- One row changed
-- ============================================================================

/-- The records after the task with an id in an organization was changed. -/
def Records.alterTask (records : Records) (id org : String) (f : Task → Task) : Records :=
  { records with tasks := records.tasks.map fun t => if Record.isOf id org t then f t else t }

/-- The session after the task with an id in an organization was changed and the change kept. -/
def Session.alter (s : Session) (id org : String) (f : Task → Task) : Session :=
  { s with working := s.working.alterTask id org f, committed := s.working.alterTask id org f }

theorem Record.isOf_eq_true_iff {id org : String} {t : Task} :
    Record.isOf id org t ↔ t.id = id ∧ t.org = org := by
  rw [Record.isOf, Bool.and_eq_true, beq_iff_eq, beq_iff_eq]
  rfl

/-- After rows of one id and organization were changed, the search for these finds the row as it was
changed, and the search for others finds what it found. -/
theorem find?_map_isOf {id org : String} {f : Task → Task}
    (hf : ∀ t : Task, Record.isOf id org t → Record.isOf id org (f t)) (id' org' : String)
    (tasks : List Task) :
    (tasks.map fun t => if Record.isOf id org t then f t else t).find? (Record.isOf id' org') =
      if id' = id ∧ org' = org then (tasks.find? (Record.isOf id org)).map f
      else tasks.find? (Record.isOf id' org') := by
  induction tasks with
  | nil => simp
  | cons t rest ih =>
    rw [List.map_cons, List.find?_cons, List.find?_cons, List.find?_cons, ih]
    by_cases hsame : id' = id ∧ org' = org
    · obtain ⟨rfl, rfl⟩ := hsame
      cases ht : Record.isOf id' org' t with
      | true => simp [hf t ht]
      | false => simp [ht]
    · cases ht : Record.isOf id org t with
      | false => simp [hsame]
      | true =>
        -- The row in front has the id and organization that were changed, not those that are looked
        -- for.
        have hother : ∀ u : Task, Record.isOf id org u → Record.isOf id' org' u = false := by
          intro u hu
          obtain ⟨rfl, rfl⟩ := Record.isOf_eq_true_iff.1 hu
          rw [← Bool.not_eq_true, Record.isOf_eq_true_iff]
          exact fun h => hsame ⟨h.1.symm, h.2.symm⟩
        simp [hsame, hother t ht, hother (f t) (hf t ht)]

/-- After a task was altered, every other task is found as it was. -/
theorem Session.task?_alter {s : Session} {id org : String} {f : Task → Task}
    (hf : ∀ t : Task, Record.isOf id org t → Record.isOf id org (f t)) (id' org' : String) :
    (s.alter id org f).task? id' org' =
      if id' = id ∧ org' = org then (s.task? id org).map f else s.task? id' org' :=
  find?_map_isOf hf id' org' s.working.tasks

/-- A session in which a task was altered, so that it is kept, comes later. -/
theorem Session.later_alter {s : Session} {id org : String} {f : Task → Task} {t : Task}
    (hf : ∀ t : Task, Record.isOf id org t → Record.isOf id org (f t))
    (ht : s.task? id org = some t) (hkept : t.Kept (f t)) : s.Later (s.alter id org f) where
  settled := rfl
  kept id' org' u hu := by
    rw [task?_alter hf]
    split
    case isTrue hsame =>
      obtain ⟨rfl, rfl⟩ := hsame
      rw [ht] at hu ⊢
      cases hu
      exact ⟨f t, rfl, hkept⟩
    case isFalse => exact ⟨u, hu, .refl u⟩
  fresh id' org' u hnone hsome := by
    rw [task?_alter hf] at hsome
    split at hsome
    case isTrue hsame =>
      obtain ⟨rfl, rfl⟩ := hsame
      rw [ht] at hnone
      cases hnone
    case isFalse =>
      rw [hnone] at hsome
      cases hsome
  executions := rfl
  unique hunique := by
    -- No task gets another id.
    have hids : (s.alter id org f).working.tasks.map Task.id = s.working.tasks.map Task.id := by
      show (s.working.tasks.map _).map _ = _
      rw [List.map_map]
      refine List.map_congr_left fun t _ => ?_
      rw [Function.comp_apply]
      split
      case isTrue hof =>
        exact (Record.isOf_eq_true_iff.1 (hf t hof)).1.trans (Record.isOf_eq_true_iff.1 hof).1.symm
      case isFalse => rfl
    rw [hids]
    exact hunique

-- ============================================================================
-- Answers
-- ============================================================================

/-- The execution with an id in an organization, as a session sees it. -/
def Session.execution? (s : Session) (id org : String) : Option Execution :=
  s.working.executions.find? (Record.isOf id org)

theorem Task.Write.isOf_apply {id org : String} (w : Task.Write) (moment : Moment) {t : Task}
    (h : Record.isOf id org t) : Record.isOf id org (w.apply moment t) := by
  cases w <;> exact h

theorem Session.task?_eq_find? (s : Session) (id org : String) :
    result (Store.task? id org) s = (.ok (s.task? id org), s) := rfl

/-- A write changes the task that it is for, if there is one to which it applies, and answers with
what it has made of it. -/
theorem result_writeTask (w : Task.Write) (id org : String) (s : Session) :
    result (writeTask w id org) s =
      match s.task? id org with
      | none => (.ok none, s)
      | some t =>
        if w.applies t then (.ok (some (w.apply s.now.bare t)),
          { s with working := s.working.alterTask id org (w.apply s.now.bare) })
        else (.ok none, s) := by
  rw [writeTask, result_bind, result_bareNow]
  simp only
  rw [result_bind, Session.task?_eq_find?]
  cases ht : s.task? id org with
  | none => rfl
  | some t =>
    simp only
    by_cases happlies : w.applies t
    -- The task is read once more after the change, and found as it was changed.
    · have hfound : ({ s with
          working := s.working.alterTask id org (w.apply s.now.bare) } : Session).task? id org =
          some (w.apply s.now.bare t) := by
        refine (find?_map_isOf (fun u hu => w.isOf_apply s.now.bare hu) id org _).trans ?_
        rw [if_pos ⟨rfl, rfl⟩, show s.working.tasks.find? (Record.isOf id org) = some t from ht]
        rfl
      rw [if_pos happlies, if_pos happlies, result_bind, result_change]
      show result (Store.task? id org) { s with
        working := s.working.alterTask id org (w.apply s.now.bare) } = _
      rw [Session.task?_eq_find?, hfound]
    · rw [if_neg happlies, if_neg happlies]
      rfl

/-- An update changes the task that it is for, if there is one and the changes can be made of what
is given. -/
theorem result_updateTask (id org : String) (given : Fields) (s : Session) :
    result (updateTask id org given) s =
      match s.task? id org with
      | none => (.ok none, s)
      | some t =>
        match Task.Changes.ofFields given with
        | .error f => (.error f, s)
        | .ok c => (.ok (some (c.apply s.now t)),
            { s with working := s.working.alterTask id org fun _ => (c.apply s.now t).bare }) := by
  rw [updateTask, result_bind, Session.task?_eq_find?]
  cases ht : s.task? id org with
  | none => rfl
  | some t =>
    simp only
    rw [result_bind, result_lift]
    cases Task.Changes.ofFields given <;> rfl

namespace Task.Order

/-- The task of an order, as a session sees it. -/
def task? (o : Order) (s : Session) : Option Task := s.task? o.task o.actor.org

variable (o : Order) {s : Session} (hs : s.Settled)

include hs

theorem commit_settled : { s with committed := s.working } = s := by
  cases s
  cases hs
  rfl

theorem rollback_settled : { s with working := s.committed } = s := by
  cases s
  cases hs
  rfl

/-- What only reads leaves the session as it was. -/
theorem transact_of_reads {α : Type} {act : Tx α} {answer : Except Failure α}
    (h : result act s = (answer, s)) : transact act s = (answer, s) := by
  rw [transact_eq, h]
  cases answer with
  | ok a => exact congrArg _ (commit_settled hs)
  | error f => exact congrArg _ (rollback_settled hs)

theorem answer_read : o.answer .read s = (.ok (o.task? s), s) :=
  transact_of_reads hs rfl

theorem answer_isThere : o.answer .isThere s = (.ok (o.task? s).isSome, s) :=
  transact_of_reads hs rfl

theorem answer_commit : o.answer .commit s = (.ok (), s) :=
  transact_of_reads hs (congrArg (Prod.mk _) (commit_settled hs))

theorem answer_execution (id : String) :
    o.answer (.execution id) s = (.ok (.ok (s.execution? id o.actor.org)), s) :=
  transact_of_reads hs rfl

/-- A write is answered as it is carried out, and then committed. -/
theorem answer_write (w : Write) :
    o.answer (.write w) s =
      match o.task? s with
      | none => (.ok none, s)
      | some t =>
        if w.applies t then (.ok (some (w.apply s.now.bare t)),
          s.alter o.task o.actor.org (w.apply s.now.bare))
        else (.ok none, s) := by
  have hact := result_writeTask w o.task o.actor.org s
  cases ht : o.task? s with
  | none =>
    rw [show s.task? o.task o.actor.org = none from ht] at hact
    exact transact_of_reads hs hact
  | some t =>
    rw [show s.task? o.task o.actor.org = some t from ht] at hact
    simp only at hact ⊢
    split
    case isTrue happlies =>
      rw [if_pos happlies] at hact
      rw [answer, Task.answer, transact_eq, hact]
      rfl
    case isFalse happlies =>
      rw [if_neg happlies] at hact
      exact transact_of_reads hs hact

/-- An update is answered as it is carried out, and then committed. -/
theorem answer_update (given : Fields) :
    o.answer (.update given) s =
      match o.task? s with
      | none => (.ok none, s)
      | some t =>
        match Changes.ofFields given with
        | .error f => (.error f, s)
        | .ok c => (.ok (some (c.apply s.now t)),
            s.alter o.task o.actor.org fun _ => (c.apply s.now t).bare) := by
  have hact := result_updateTask o.task o.actor.org given s
  cases ht : o.task? s with
  | none =>
    rw [show s.task? o.task o.actor.org = none from ht] at hact
    exact transact_of_reads hs hact
  | some t =>
    rw [show s.task? o.task o.actor.org = some t from ht] at hact
    cases hchanges : Changes.ofFields given with
    | error f =>
      rw [hchanges] at hact
      exact transact_of_reads hs hact
    | ok c =>
      rw [hchanges] at hact
      rw [answer, Task.answer, transact_eq, hact]
      rfl

/-- A write changes the task that it applies to, or nothing. -/
theorem answer_write_cases (w : Write) :
    o.answer (.write w) s = (.ok none, s) ∨ ∃ t, o.task? s = some t ∧ w.applies t ∧
      o.answer (.write w) s = (.ok (some (w.apply s.now.bare t)),
        s.alter o.task o.actor.org (w.apply s.now.bare)) := by
  rw [o.answer_write hs]
  cases o.task? s with
  | none => exact .inl rfl
  | some t =>
    by_cases happlies : w.applies t
    · exact .inr ⟨t, rfl, happlies, if_pos happlies⟩
    · exact .inl (if_neg happlies)

/-- New values of fields change the task, or nothing. -/
theorem answer_update_cases (given : Fields) :
    (o.answer (.update given) s).2 = s ∨ ∃ (t : Task) (c : Changes), o.task? s = some t ∧
      o.answer (.update given) s = (.ok (some (c.apply s.now t)),
        s.alter o.task o.actor.org fun _ => (c.apply s.now t).bare) := by
  rw [o.answer_update hs]
  cases o.task? s with
  | none => exact .inl rfl
  | some t =>
    cases Changes.ofFields given with
    | error f => exact .inl rfl
    | ok c => exact .inr ⟨t, c, rfl, rfl⟩

/-- What is said to others touches neither tasks nor executions. -/
theorem same_tell (user : Json) (title : String) :
    s.Same (o.answer (.tell user title) s).2 ∧
      (o.answer (.tell user title) s).2.engine = s.engine := by
  have hmoves : Moves (.keeping fun records => (records.tasks, records.executions))
      (Task.answer o.reach o.task o.actor (.tell user title)) := by
    rw [Task.answer]
    split
    · exact .tryCatch (moves_tellAssigned (fun _ _ _ => rfl) _ _ _ _) fun _ => .pure _
    · exact .pure _
  obtain ⟨hsettled, hview, hengine⟩ := hmoves.transact hs
  exact ⟨⟨hsettled, congrArg Prod.fst hview, congrArg Prod.snd hview⟩, hengine⟩

/-- The audit trail touches neither tasks nor executions, not even when it takes no entry. -/
theorem same_log (action : String) (details : Json) :
    s.Same (o.answer (.log action details) s).2 ∧
      (o.answer (.log action details) s).2.engine = s.engine := by
  have hstep := result_tryCatch_rollback
    (R := .keeping fun records => (records.tasks, records.executions))
    (moves_addAudit o.actor.org (fun _ _ _ => rfl) (some o.actor.user) "task" o.task action
      details) hs
  rw [answer, Task.answer]
  split
  · obtain ⟨hsettled, hview, hengine⟩ := Store.transact_of_step hs hstep
    exact ⟨⟨hsettled, congrArg Prod.fst hview, congrArg Prod.snd hview⟩, hengine⟩
  · rw [transact_of_reads hs (result_pure () s)]
    exact ⟨.refl hs, rfl⟩

omit hs in
/-- An entry of the trail is always answered. -/
theorem exists_answer_log (action : String) (details : Json) :
    ∃ a, (o.answer (.log action details) s).1 = .ok a := by
  refine exists_transact_eq_ok ?_
  rw [Task.answer]
  split
  · exact exists_result_tryCatch (fun _ _ => ⟨(), rfl⟩) s
  · exact ⟨(), rfl⟩

/-- A signal is sent to the engine, or counts as lost. -/
theorem answer_signal (workflow : String) (m : Signal) :
    o.answer (.signal workflow m) s =
      if o.reach.signals then (.ok (s.engine.send workflow m).1.isOk,
        { s with engine := (s.engine.send workflow m).2 })
      else (.ok false, s) := by
  rw [answer, Task.answer]
  split
  · rw [transact_eq, result_bind]
    have hask : result (Store.ask fun engine => engine.send workflow m) s =
        (.ok (s.engine.send workflow m).1, { s with engine := (s.engine.send workflow m).2 }) := rfl
    rw [hask]
    exact congrArg (Prod.mk _) (commit_settled (s := { s with engine := _ }) hs)
  · exact transact_of_reads hs rfl

theorem exists_answer_signal (workflow : String) (m : Signal) :
    ∃ b, (o.answer (.signal workflow m) s).1 = .ok b := by
  rw [o.answer_signal hs]
  split
  · exact ⟨_, rfl⟩
  · exact ⟨_, rfl⟩

/-- A request may be asked for at a moment. -/
def Safe (s : Session) : Request → Prop
  | .write w => ∀ t, o.task? s = some t → w.applies t → w.Safe t
  | _ => True

/-- Only writes and updates touch the tasks. -/
theorem same_answer {r : Request} (hwrite : ∀ w, r ≠ .write w)
    (hupdate : ∀ given, r ≠ .update given) :
    s.Same (o.answer r s).2 := by
  -- Nothing is written but notices and entries of the trail, and these leave the tasks and
  -- executions.
  cases r with
  | read =>
    rw [o.answer_read hs]
    exact .refl hs
  | isThere =>
    rw [o.answer_isThere hs]
    exact .refl hs
  | commit =>
    rw [o.answer_commit hs]
    exact .refl hs
  | execution id =>
    rw [o.answer_execution hs]
    exact .refl hs
  | signal workflow m =>
    rw [o.answer_signal hs]
    split
    · exact ⟨hs, rfl, rfl⟩
    · exact .refl hs
  | tell user title => exact (o.same_tell hs user title).1
  | log action details => exact (o.same_log hs action details).1
  | write w => exact absurd rfl (hwrite w)
  | update given => exact absurd rfl (hupdate given)

/-- Every answer leads to a later session. -/
theorem later_answer {r : Request} (hsafe : o.Safe s r) : s.Later (o.answer r s).2 := by
  -- A write that applies keeps its task, which is what makes it safe.
  cases r with
  | write w =>
    rcases o.answer_write_cases hs w with heq | ⟨t, ht, happlies, heq⟩
    · rw [heq]
      exact .refl hs
    · rw [heq]
      exact Session.later_alter (fun u hu => w.isOf_apply _ hu) ht
        (Write.kept happlies (hsafe t ht happlies) _)
  -- An update touches neither the status nor what belongs to it.
  | update given =>
    rcases o.answer_update_cases hs given with heq | ⟨t, c, ht, heq⟩
    · rw [heq]
      exact .refl hs
    · have hid : Record.isOf o.task o.actor.org t := List.find?_some ht
      rw [heq]
      exact Session.later_alter (fun _ _ => hid) ht (kept_changes c _ t)
  | _ => exact (o.same_answer hs (by simp) (by simp)).later

/-- Only messages reach the engine. -/
theorem engine_answer {r : Request} (hsignal : ∀ workflow m, r ≠ .signal workflow m) :
    (o.answer r s).2.engine = s.engine := by
  -- Only signals go to the engine.
  cases r with
  | write w =>
    rcases o.answer_write_cases hs w with heq | ⟨t, -, -, heq⟩
    · rw [heq]
    · rw [heq]
      rfl
  | update given =>
    rcases o.answer_update_cases hs given with heq | ⟨t, c, -, heq⟩
    · rw [heq]
    · rw [heq]
      rfl
  | tell user title => exact (o.same_tell hs user title).2
  | log action details => exact (o.same_log hs action details).2
  | signal workflow m => exact absurd rfl (hsignal workflow m)
  | _ => rfl

end Task.Order
end Casework
