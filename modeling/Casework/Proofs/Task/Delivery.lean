/-
  Casework.Proofs.Task.Delivery

  What a run learns from the operations on its tasks. Two messages tell it of a decision: that the
  task is completed, and what was decided. Each of them can be lost, and messages about other tasks
  can come in between; the run takes a decision for one about the task that was completed last.
-/
import Casework.Proofs.Run.Inbox
import Casework.Proofs.Task.Winner

namespace Casework

open Store

-- ============================================================================
-- The engine
-- ============================================================================

/-- The message of a call, if it is one to a run. -/
def EngineCall.mail? (workflow : String) : EngineCall → Option Signal
  | .signal m w => if w = workflow then some m else none
  | .start _ _ => none

/-- The messages that the engine took for a run, in the order of time. -/
def Engine.mail (e : Engine) (workflow : String) : List Signal :=
  e.sent.filterMap (EngineCall.mail? workflow)

/-- What a run has been told. -/
def Session.inbox (s : Session) (workflow : String) : Inbox := Inbox.told (s.engine.mail workflow)

/-- A signal that is sent and taken comes behind the mail of its workflow. -/
theorem Engine.mail_send (e : Engine) (w : String) (m : Signal) (workflow : String) :
    (e.send w m).2.mail workflow = e.mail workflow ++
      if (e.send w m).1.isOk && w == workflow then [m] else [] := by
  have hconnect : e.connect.sent = e.sent := rfl
  simp only [send, call]
  split
  · simp [mail, hconnect, Except.isOk, Except.toBool]
  · split
    · simp [mail, hconnect, Except.isOk, Except.toBool]
    · simp only [mail, hconnect, List.filterMap_append, Except.isOk, Except.toBool, Bool.true_and]
      by_cases hw : w = workflow
      · simp [EngineCall.mail?, hw]
      · simp [EngineCall.mail?, hw]

namespace Task

/-- The message that a request was to send to a run, if the engine took it. -/
def Exchange.delivered? (workflow : String) : Exchange → Option Signal
  | ⟨.signal w m, .ok true⟩ => if w = workflow then some m else none
  | _ => none

namespace Order

variable (o : Order) {s : Session} (hs : s.Settled)

include hs

/-- The engine takes what is delivered, and nothing else. -/
theorem mail_answer (r : Request) (workflow : String) :
    (o.answer r s).2.engine.mail workflow = s.engine.mail workflow ++
      (Exchange.delivered? workflow ⟨r, (o.answer r s).1⟩).toList := by
  cases r with
  -- Only a signal is sent, and it arrives if the engine takes it and it is for this workflow.
  | signal w m =>
    rw [o.answer_signal hs]
    split
    · refine (Engine.mail_send _ w m workflow).trans (congrArg _ ?_)
      cases (s.engine.send w m).1.isOk with
      | false => rfl
      | true =>
        by_cases hw : w = workflow
        · simp [Exchange.delivered?, hw]
        · simp [Exchange.delivered?, hw]
    · exact (List.append_nil _).symm
  | _ =>
    rw [o.engine_answer hs (by simp)]
    exact (List.append_nil _).symm

end Order

namespace Office

variable {f : Office} {s : Session} {workflow : String}

/-- The messages to a run that the engine took, in the order of time, and who sent them. -/
def delivered (f : Office) (workflow : String) : List (Nat × Signal) :=
  f.history.filterMap fun entry => (entry.2.delivered? workflow).map (entry.1, ·)

/-- A turn delivers what its request sends. -/
theorem delivered_turn {index : Nat} {o : Order} {r : Request}
    {next : r.Answer → Dialogue Transition} (hparty : f.parties[index]? = some ⟨o, .ask r next⟩) :
    (f.turn index).delivered workflow = f.delivered workflow ++
      (Exchange.delivered? workflow ⟨r, (o.answer r f.session).1⟩).toList.map (index, ·) := by
  rw [delivered, history_turn hparty, List.filterMap_append, delivered]
  congr 1
  rw [List.filterMap_cons, List.filterMap_nil]
  cases Exchange.delivered? workflow ⟨r, (o.answer r f.session).1⟩ <;> rfl

/-- A run is told what is delivered, and nothing else. -/
def Told (s : Session) (workflow : String) (f : Office) : Prop :=
  f.session.engine.mail workflow = s.engine.mail workflow ++ (f.delivered workflow).map Prod.snd

/-- After a turn the mail is still what was delivered. -/
theorem Told.turn (hproper : f.Proper s) (h : Told s workflow f) (index : Nat) :
    Told s workflow (f.turn index) := by
  obtain heq | ⟨o, r, next, hparty⟩ := f.turn_eq_or index
  · rw [heq]
    exact h
  · rw [Told, session_turn hparty, o.mail_answer hproper.settled, h, delivered_turn hparty,
      List.map_append, List.append_assoc, List.map_map]
    exact congrArg _ (congrArg _ (List.map_id _).symm)

/-- After any move the mail is still what was delivered. -/
theorem Told.move (hproper : f.Proper s) (h : Told s workflow f) (m : Move) :
    Told s workflow (f.move m) := by
  cases m with
  | arrive o => exact h
  | turn index => exact h.turn hproper index
  | tick now => exact h
  | disturb trouble => exact h
  | create params =>
    obtain ⟨-, -, hengine⟩ := (moves_activity params).transact hproper.settled
    have hsession : (f.move (.create params)).session.engine = f.session.engine := hengine
    rw [Told, hsession]
    exact h

-- ============================================================================
-- Senders
-- ============================================================================

/-- What an exchange delivers is the signal that it sends. -/
theorem signal?_of_delivered? {e : Exchange} {m : Signal} (h : e.delivered? workflow = some m) :
    e.signal? = some (workflow, m) := by
  unfold Exchange.delivered? at h
  split at h
  · split at h
    · cases h
      rename_i hw
      rw [← hw]
      rfl
    · cases h
  · cases h

/-- What is delivered was sent by an operation that has marked its task as done, and is one of the
messages about the task as it is stored. -/
theorem exists_sender (hproper : f.Proper s) {i : Nat} {m : Signal}
    (h : (i, m) ∈ f.delivered workflow) :
    ∃ p t, f.parties[i]? = some p ∧ i ∈ f.finishers p.order.task p.order.actor.org ∧
      p.order.task? f.session = some t ∧ t.isDone ∧ p.order.Decides t ∧ m ∈ p.order.news t := by
  obtain ⟨⟨j, e⟩, hentry, hdelivered⟩ := List.mem_filterMap.1 h
  obtain ⟨m', hm, heq⟩ := Option.map_eq_some_iff.1 hdelivered
  cases heq
  have hi := hproper.known _ hentry
  have hp : f.parties[j]? = some f.parties[j] := List.getElem?_eq_getElem hi
  -- The signal stands in the log of its sender.
  have hsignal : (workflow, m) ∈ (f.log j).signals := by
    refine List.mem_filterMap.2 ⟨e, ?_, signal?_of_delivered? hm⟩
    exact List.mem_filterMap.2 ⟨(j, e), hentry, if_pos rfl⟩
  -- A sender that has not finished the task has sent nothing.
  rcases (hproper.course j _ hp).conducted with hidle | ⟨sent, hwon, hprefix⟩
  · rw [hidle.signals_eq] at hsignal
    cases hsignal
  · rw [hwon.log.signals_eq] at hsignal
    have hmessage := hprefix.subset hsignal
    obtain ⟨t, ht, hdone, hdecides⟩ := hwon.row
    have hwinner := mem_finishers_of_won hp (Order.isOn_iff.2 ⟨rfl, rfl⟩) hwon
    refine ⟨_, t, hp, hwinner, ht, hdone, hdecides, ?_⟩
    -- It has won, and the task has a run, to which the news of the task are sent.
    cases hrun : f.session.workflow? t f.parties[j].order.actor.org with
    | none =>
      rw [Order.messages_of_no_run ht hrun] at hmessage
      cases hmessage
    | some run =>
      rw [Order.messages_of_run ht hrun] at hmessage
      obtain ⟨m', hnews, heq⟩ := List.mem_map.1 hmessage
      cases heq
      exact hnews

/-- All that is delivered is about a task. -/
theorem aboutTask_of_delivered (hproper : f.Proper s) (workflow : String) :
    ∀ m ∈ (f.delivered workflow).map Prod.snd, m.AboutTask := by
  intro m hm
  obtain ⟨⟨i, m'⟩, hdelivered, rfl⟩ := List.mem_map.1 hm
  obtain ⟨p, t, -, -, -, -, -, hnews⟩ := exists_sender hproper hdelivered
  unfold Order.news at hnews
  split at hnews
  · rcases List.mem_pair.1 hnews with rfl | rfl
    · exact .completed _ _
    · exact .decided _ _ _
  · obtain rfl := List.mem_singleton.1 hnews
    exact .completed _ _

/-- An operation decided its task, and the task is stored with this outcome. -/
structure Decider (f : Office) (i : Nat) (p : Party) (t : Task) (outcome : String) : Prop where
  party : f.parties[i]? = some p
  winner : i ∈ f.finishers p.order.task p.order.actor.org
  row : p.order.task? f.session = some t
  done : t.isDone
  outcome : t.outcome = some outcome

/-- A decision that is delivered says what is stored about the task that its sender decided. -/
theorem exists_decider (hproper : f.Proper s) {i : Nat} {outcome user : String}
    {comment : Option String} (h : (i, .decided outcome comment user) ∈ f.delivered workflow) :
    ∃ p t, f.Decider i p t outcome ∧ comment = t.comment ∧ user = p.order.actor.user := by
  obtain ⟨p, t, hp, hwinner, ht, hdone, hdecides, hnews⟩ := exists_sender hproper h
  unfold Order.news at hnews
  split at hnews
  · rename_i decision given hoperation
    obtain ⟨houtcome, -⟩ := hdecides decision given hoperation
    rcases List.mem_pair.1 hnews with heq | heq
    · cases heq
    · rw [houtcome] at heq
      obtain ⟨rfl, hcomment, huser⟩ := Signal.decided_inj heq
      exact ⟨p, t, ⟨hp, hwinner, ht, hdone, houtcome⟩, hcomment, huser⟩
  · cases List.mem_singleton.1 hnews

-- ============================================================================
-- What a run keeps
-- ============================================================================

/-- What a run keeps under a task is a decision that was delivered while the task was completed
last, and after which no other one was. It says what is stored about the task that its sender
decided. This is the same task, if its completion was delivered and no completion of another one was
delivered before the decision. -/
def KeepsDecision (f : Office) (workflow id : String) (fields : Fields) : Prop :=
  ∃ before i p t outcome after,
    f.Decider i p t outcome ∧
    f.delivered workflow =
      before ++ (i, .decided outcome t.comment p.order.actor.user) :: after ∧
    fields = Signal.decision outcome t.comment p.order.actor.user ∧
    Inbox.Kept id ((f.delivered workflow).map Prod.snd) (before.map Prod.snd)
      (.decided outcome t.comment p.order.actor.user) (after.map Prod.snd) ∧
    ∀ earlier between,
      before = earlier ++ (i, .completed p.order.task p.order.actor.user) :: between →
      (∀ j task user, (j, .completed task user) ∈ between → task = p.order.task) →
      p.order.task ≠ "" → id = p.order.task

/-- Whatever is decided in whatever order, and whatever messages are lost, a run that was told
nothing before keeps such decisions only. -/
theorem keepsDecision_play {s : Session} (hmail : (opened s).session.engine.mail workflow = [])
    (moves : List Move) {id : String} {fields : Fields}
    (h : (((opened s).play moves).session.inbox workflow).approval? (.text id) = some fields) :
    ((opened s).play moves).KeepsDecision workflow id fields := by
  have hproper := (Proper.opened s).play moves
  have htold : Told (opened s).session workflow ((opened s).play moves) :=
    (Proper.opened s).invariant (P := fun f => Told (opened s).session workflow f)
      (fun _ m hproper h => h.move hproper m) (by simp [Told, delivered, opened]) moves
  rw [Told, hmail, List.nil_append] at htold
  have habout := aboutTask_of_delivered hproper workflow
  rw [Session.inbox, htold] at h
  -- The decision that is kept came when its task was the last one completed, and none for the task
  -- came behind.
  obtain ⟨before, outcome, comment, user, after, hkept, rfl⟩ := Inbox.exists_kept habout h
  obtain ⟨before', rest, hsplit, rfl, hrest⟩ := List.map_eq_append_iff.1 hkept.split
  obtain ⟨⟨i, m⟩, after', rfl, hm, rfl⟩ := List.map_eq_cons_iff.1 hrest
  have hm : m = .decided outcome comment user := hm
  subst hm
  have hdelivered : (i, .decided outcome comment user) ∈
      ((opened s).play moves).delivered workflow := by
    rw [hsplit]
    simp
  -- It was delivered by the operation that has decided the task.
  obtain ⟨p, t, hdecider, rfl, rfl⟩ := exists_decider hproper hdelivered
  refine ⟨before', i, p, t, outcome, after', hdecider, hsplit, rfl, hkept, ?_⟩
  rintro earlier between rfl hbetween htask
  rw [List.map_append, List.map_cons] at hkept
  -- If the decider told of the completion right before, it was this task that was completed last.
  have hown : (Inbox.told (earlier.map Prod.snd ++
      .completed p.order.task p.order.actor.user :: between.map Prod.snd)).last =
        some (.text p.order.task) := by
    refine Inbox.last_told_of_completed (fun m hm => habout m ?_) htask fun task user hm => ?_
    · rw [hkept.split]
      exact List.mem_append_left _ hm
    · obtain ⟨⟨j, m⟩, hm, rfl⟩ := List.mem_map.1 hm
      exact hbetween j task user hm
  have hsame := hkept.last.symm.trans hown
  simpa using hsame

/-- A store with an execution whose run waits for tasks. -/
def busyStore : Session :=
  { emptyStore with committed.executions := [{
      id := "exec-1", org := "org", definition := "def-1", version := .null, contact := none
      status := "open", state := "running", steps := .null, step := none, startedBy := none
      workflow := some "run-1", run := none, details := .null
      started := emptyStore.now, completed := none, updated := emptyStore.now }] }

/-- Two approvals of one execution are decided one after the other. That the second one is completed
is lost. -/
def losing : List Move :=
  [creating (.text "exec-1"), creating (.text "exec-1"),
    .arrive (deciding "ann" "task-1" .approve)] ++ List.replicate 8 (.turn 0) ++
  [.disturb { completed := some "unavailable" },
    .arrive (deciding "bob" "task-2" .reject)] ++ List.replicate 8 (.turn 1)

theorem keepsDecision_losing :
    (opened busyStore).session.engine.mail "run-1" = [] ∧
      (((opened busyStore).play losing).session.inbox "run-1").approval? (.text "task-1") =
        some (Signal.decision "rejected" none "bob") ∧
      ((opened busyStore).play losing).KeepsDecision "run-1" "task-1"
        (Signal.decision "rejected" none "bob") :=
  ⟨rfl, rfl, keepsDecision_play rfl losing rfl⟩

/-- A run can keep the decision about one task under another one. -/
theorem not_all_approvals_own :
    ¬ ∀ (moves : List Move) (id : String) (fields : Fields) (t : Task),
      (((opened busyStore).play moves).session.inbox "run-1").approval? (.text id) = some fields →
      ((opened busyStore).play moves).session.task? id "org" = some t →
        fields.value "outcome" = .optText t.outcome := by
  intro h
  have houtcome : (((opened busyStore).play losing).session.task? "task-1" "org").map Task.outcome =
      some (some "approved") := rfl
  obtain ⟨t, ht, happroved⟩ := Option.map_eq_some_iff.1 houtcome
  have hsame := h losing "task-1" (Signal.decision "rejected" none "bob") t rfl ht
  rw [happroved] at hsame
  have htexts : Json.text "rejected" = .text "approved" := hsame
  exact absurd (Json.text.inj htexts) (by decide)

end Office
end Task
end Casework
