/-
  Casework.Proofs.Task.Course

  What an operation may have asked for so far, and how it may end. As long as it has not marked its
  task as done it sends nothing; after that it sends the messages about the task as it was stored,
  in their order, to the run of the task's execution. Who comes too late is told how the task was
  done.

  Between two requests of an operation the session can become any later one, and that is all the
  operation can rely on. In return it asks for nothing that is not safe, so that its own requests
  lead to later sessions too. `Holds` says of the rest of a dialogue that this is so at each
  request, that everything asked so far is as it should be, and that the end is.
-/
import Casework.Proofs.Task.Answer

namespace Casework

namespace Task

-- ============================================================================
-- Dialogues among others
-- ============================================================================

namespace Dialogue

variable {α β : Type}

/-- Dialogues that go on with one another may be put together either way. -/
theorem bind_assoc {γ : Type} (x : Dialogue α) (f : α → Dialogue β) (g : β → Dialogue γ) :
    (x >>= f) >>= g = x >>= fun a => f a >>= g := by
  induction x with
  | done a => rfl
  | fail e => rfl
  | ask r next ih => exact congrArg (Dialogue.ask r) (funext fun answer => ih answer)

/-- Whatever others do in between, the rest of a dialogue is safe, keeps its log good, and ends
well. -/
def Holds (o : Order) (good : Log → Session → Prop)
    (post : Except Failure α → Log → Session → Prop) : Dialogue α → Log → Session → Prop
  | .done a, log, s => post (.ok a) log s
  | .fail f, log, s => post (.error f) log s
  | .ask r next, log, s => ∀ s', s.Later s' →
    o.Safe s' r ∧ good (log ++ [⟨r, (o.answer r s').1⟩]) (o.answer r s').2 ∧
      match (o.answer r s').1 with
      | .ok a => (next a).Holds o good post (log ++ [⟨r, (o.answer r s').1⟩]) (o.answer r s').2
      | .error f => post (.error f) (log ++ [⟨r, (o.answer r s').1⟩]) (o.answer r s').2

variable {o : Order} {good : Log → Session → Prop} {post : Except Failure α → Log → Session → Prop}
  {log : Log} {s s' : Session}

/-- What holds at a moment holds at a later one. -/
theorem Holds.later (hpost : ∀ result log s s', s.Later s' → post result log s → post result log s')
    {x : Dialogue α} (h : x.Holds o good post log s) (hs : s.Later s') :
    x.Holds o good post log s' := by
  cases x with
  | done a => exact hpost _ _ _ _ hs h
  | fail f => exact hpost _ _ _ _ hs h
  | ask r next => exact fun s'' hs' => h s'' (hs.trans hs')

namespace Holds

/-- A requirement is met, and the dialogue goes on, or it ends with the failure. -/
theorem require {c : Bool} {f : Failure} {next : Unit → Dialogue α}
    (htrue : c = true → (next ()).Holds o good post log s)
    (hfalse : c = false → post (.error f) log s) :
    (Dialogue.require c f >>= next).Holds o good post log s := by
  rw [Dialogue.require]
  cases c with
  | true => exact htrue rfl
  | false => exact hfalse rfl

/-- A step without a request goes on with its result, or ends with its failure. -/
theorem lift {x : Except Failure β} {next : β → Dialogue α}
    (hok : ∀ b, x = .ok b → (next b).Holds o good post log s)
    (herror : ∀ f, x = .error f → post (.error f) log s) :
    (Dialogue.lift x >>= next).Holds o good post log s := by
  cases x with
  | ok b => exact hok b rfl
  | error f => exact herror f rfl

end Holds
end Dialogue

-- ============================================================================
-- Exchanges
-- ============================================================================

namespace Exchange

/-- A request was to mark the task as done, and it was marked. -/
def finishes : Exchange → Bool
  | ⟨.write .complete, .ok (some _)⟩ | ⟨.write (.decide _ _), .ok (some _)⟩ => true
  | _ => false

/-- The message that a request was to send, and to which run. -/
def signal? (e : Exchange) : Option (String × Signal) :=
  match e.request with
  | .signal workflow m => some (workflow, m)
  | _ => none

/-- Neither was the task marked as done, nor a message sent. -/
structure Quiet (e : Exchange) : Prop where
  finishes : e.finishes = false
  signal? : e.signal? = none

end Exchange

/-- The messages among what was asked for, and to which runs, in the order of time. -/
def Dialogue.Log.signals (log : Dialogue.Log) : List (String × Signal) :=
  log.filterMap Exchange.signal?

/-- The task as it was read at first. -/
def Dialogue.Log.seen? (log : Dialogue.Log) : Option Task :=
  match log.head? with
  | some ⟨.read, .ok t⟩ => t
  | _ => none

/-- Neither was the task marked as done so far, nor a message sent. -/
def Dialogue.Log.Idle (log : Dialogue.Log) : Prop := ∀ e ∈ log, e.Quiet

/-- The task was marked as done at some point, and certain messages were sent after it. -/
structure Dialogue.Log.Finishes (log : Dialogue.Log) (sent : List (String × Signal)) : Prop where
  split : ∃ before e after, log = before ++ e :: after ∧ Dialogue.Log.Idle before ∧ e.finishes ∧
    (∀ e' ∈ after, e'.finishes = false) ∧ Dialogue.Log.signals after = sent

namespace Dialogue.Log

variable {log : Log} {e : Exchange} {t : Task} {sent : List (String × Signal)}

theorem idle_nil : Idle [] := fun _ h => absurd h List.not_mem_nil

/-- What was seen first stays so, whatever comes behind. -/
theorem seen?_append (h : log ≠ []) : seen? (log ++ [e]) = seen? log := by
  cases log with
  | nil => exact absurd rfl h
  | cons first rest => rfl

theorem ne_nil_of_seen? (h : seen? log = some t) : log ≠ [] := by
  rintro rfl
  cases h

/-- A log without changes stays so with a quiet exchange behind it. -/
theorem Idle.append (h : Idle log) (he : e.Quiet) : Idle (log ++ [e]) := by
  intro e' he'
  rcases List.mem_append.1 he' with hlog | hlast
  · exact h e' hlog
  · obtain rfl := List.mem_singleton.1 hlast
    exact he

/-- A log without changes has no signals. -/
theorem Idle.signals_eq (h : Idle log) : signals log = [] :=
  List.filterMap_eq_nil_iff.2 fun e he => (h e he).signal?

/-- The task is marked as done. -/
theorem Idle.finish (h : Idle log) (he : e.finishes) : Finishes (log ++ [e]) [] :=
  ⟨log, e, [], rfl, h, he, by simp, rfl⟩

/-- What is asked for afterwards. -/
theorem Finishes.append (h : Finishes log sent) (he : e.finishes = false) :
    Finishes (log ++ [e]) (sent ++ e.signal?.toList) := by
  obtain ⟨before, first, after, rfl, hbefore, hfirst, hafter, rfl⟩ := h.split
  refine ⟨before, first, after ++ [e], by simp, hbefore, hfirst, ?_, ?_⟩
  · intro e' he'
    rcases List.mem_append.1 he' with hold | hlast
    · exact hafter e' hold
    · obtain rfl := List.mem_singleton.1 hlast
      exact he
  · rw [Log.signals, Log.signals, List.filterMap_append]
    cases hsignal : e.signal? <;> simp [hsignal]

/-- A quiet exchange behind a log that finishes the task adds nothing to what is sent. -/
theorem Finishes.append_quiet (h : Finishes log sent) (he : e.Quiet) :
    Finishes (log ++ [e]) sent := by
  have hnext := h.append he.finishes
  rw [he.signal?, Option.toList_none, List.append_nil] at hnext
  exact hnext

/-- The signals of a log that finishes a task are those that are sent. -/
theorem Finishes.signals_eq (h : Finishes log sent) : signals log = sent := by
  obtain ⟨before, first, after, rfl, hbefore, hfirst, hafter, rfl⟩ := h.split
  have hnone : first.signal? = none := by
    rcases first with ⟨request, answer⟩
    cases request with
    | signal workflow m => cases hfirst
    | _ => rfl
  rw [Log.signals, List.filterMap_append, List.filterMap_cons, hnone]
  exact congrArg (· ++ _) hbefore.signals_eq

theorem Finishes.exists_mem (h : Finishes log sent) : ∃ e ∈ log, e.finishes := by
  obtain ⟨before, first, after, rfl, hbefore, hfirst, hafter, rfl⟩ := h.split
  exact ⟨first, by simp, hfirst⟩

end Dialogue.Log
end Task

-- ============================================================================
-- The execution of a task
-- ============================================================================

/-- The execution of a task, if it has one and it can be found. -/
def Session.executionOf? (s : Session) (t : Task) (org : String) : Option Execution :=
  match t.execution with
  | none | some "" => none
  | some id => s.execution? id org

/-- The run of a task's execution. -/
def Session.workflow? (s : Session) (t : Task) (org : String) : Option String :=
  (s.executionOf? t org).bind fun execution => execution.workflow.filter (· != "")

/-- The program of a task's execution. -/
def Session.stepsOf (s : Session) (t : Task) (org : String) : Json :=
  ((s.executionOf? t org).map Execution.steps).getD .null

theorem Session.executionOf?_none {s : Session} {t : Task}
    (h : t.execution = none ∨ t.execution = some "") (org : String) :
    s.executionOf? t org = none := by
  rw [executionOf?]
  rcases h with h | h
  · rw [h]
  · rw [h]
    rfl

theorem Session.executionOf?_some {s : Session} {t : Task} {id : String}
    (h : t.execution = some id) (hid : id ≠ "") (org : String) :
    s.executionOf? t org = s.execution? id org := by
  rw [executionOf?, h]
  split
  · contradiction
  · rename_i heq
    exact absurd (Option.some.inj heq) hid
  · rename_i heq
    rw [Option.some.inj heq]

/-- The execution of a task that is kept is the same in a later session. -/
theorem Session.executionOf?_later {s s' : Session} (h : s.Later s') {t t' : Task}
    (hkept : t.Kept t') (org : String) : s'.executionOf? t' org = s.executionOf? t org := by
  rw [executionOf?, executionOf?, hkept.execution]
  simp only [execution?, h.executions]

namespace Task

-- ============================================================================
-- Orders
-- ============================================================================

namespace Order

/-- What an operation tells the run of a task that it has marked as done. -/
def news (o : Order) (t : Task) : List Signal :=
  match o.operation with
  | .conclude _ _ => [.completed o.task o.actor.user,
      .decided (t.outcome.getD "") t.comment o.actor.user]
  | _ => [.completed o.task o.actor.user]

/-- The messages of an operation about its task, and to which run. -/
def messages (o : Order) (s : Session) : List (String × Signal) :=
  match o.task? s with
  | none => []
  | some t =>
    match s.workflow? t o.actor.org with
    | none => []
    | some workflow => (o.news t).map (workflow, ·)

/-- A task was decided as an operation asks for, if it asks for a decision. -/
def Decides (o : Order) (t : Task) : Prop :=
  ∀ decision given, o.operation = .conclude decision given →
    t.outcome = some decision.outcome ∧ Lifecycle.commentOf given = .ok t.comment

/-- A decision passes its checks on a task as it was read, apart from coming too late for it. -/
def MayConclude (o : Order) (given : Json) (t : Task) (s : Session) : Prop :=
  o.actor.canMutate t.assignment ∧ t.isApproval ∧
    ∃ comment needed, Lifecycle.commentOf given = .ok comment ∧
      requiresComment (s.stepsOf t o.actor.org) (.optText t.creator) = .ok needed ∧
      (needed → comment.isSome)

/-- An operation has marked its task as done, and sent certain messages after it. -/
structure Won (o : Order) (sent : List (String × Signal)) (log : Dialogue.Log) (s : Session) :
    Prop where
  row : ∃ t, o.task? s = some t ∧ t.isDone ∧ o.Decides t
  log : log.Finishes sent

/-- What an operation has asked for is as it should be. -/
def Conducted (o : Order) (log : Dialogue.Log) (s : Session) : Prop :=
  log.Idle ∨ ∃ sent, o.Won sent log s ∧ sent <+: o.messages s

/-- How an operation may have ended. -/
def Ended (o : Order) (result : Except Failure Transition) (log : Dialogue.Log) (s : Session) :
    Prop :=
  match o.operation, result with
  | .conclude _ _, .ok _ => o.Won (o.messages s) log s
  | .conclude _ given, .error f =>
    log.Idle ∧ ∀ t, log.seen? = some t → o.MayConclude given t s →
      ∃ t', o.task? s = some t' ∧ t'.isDone ∧ f = Lifecycle.late "Task already completed" t'
  | .setStatus status, .ok tr =>
    o.Won (o.messages s) log s ∨
      log.Idle ∧ tr.signaled = false ∧ (status.text? = some done → tr.task.isDone)
  | .setStatus status, .error _ =>
    log.Idle ∧ ∀ t, log.seen? = some t → status.text? = some done →
      o.actor.canMutate t.assignment → t.isApproval
  | _, _ => log.Idle

section Later

variable {o : Order} {s s' : Session} {t : Task} {log : Dialogue.Log} {e : Exchange}
  {sent : List (String × Signal)}

/-- A task is still there in a later session, and was kept. -/
theorem task?_later (h : s.Later s') (ht : o.task? s = some t) :
    ∃ t', o.task? s' = some t' ∧ t.Kept t' :=
  h.kept _ _ t ht

theorem kept_of_later {t' : Task} (h : s.Later s') (ht : o.task? s = some t)
    (ht' : o.task? s' = some t') : t.Kept t' := by
  obtain ⟨u, hu, hkept⟩ := task?_later h ht
  rw [Option.some.inj (ht'.symm.trans hu)]
  exact hkept

theorem ne_none_of_later (h : s.Later s') (ht : o.task? s = some t) : o.task? s' ≠ none := by
  obtain ⟨u, hu, -⟩ := task?_later h ht
  rw [hu]
  exact Option.some_ne_none u

/-- An operation that decided a task did so in a later session, too. -/
theorem Decides.later (h : o.Decides t) {t' : Task} (hkept : t.Kept t') (hdone : t.isDone) :
    o.Decides t' := by
  intro decision given hoperation
  obtain ⟨houtcome, hcomment⟩ := h decision given hoperation
  obtain ⟨-, houtcome', hcomment', -⟩ := hkept.final hdone
  exact ⟨houtcome'.trans houtcome, hcomment.trans (by rw [hcomment'])⟩

/-- Where no run waits for the task, nobody is told of it. -/
theorem messages_of_no_run (ht : o.task? s = some t)
    (hrun : s.workflow? t o.actor.org = none) : o.messages s = [] := by
  rw [messages, ht]
  simp only [hrun]

/-- The run that waits for the task is told the news of it. -/
theorem messages_of_run {workflow : String} (ht : o.task? s = some t)
    (hrun : s.workflow? t o.actor.org = some workflow) :
    o.messages s = (o.news t).map (workflow, ·) := by
  rw [messages, ht]
  simp only [hrun]

/-- What is to be told of a task that is done stays the same. -/
theorem messages_later (h : s.Later s') (ht : o.task? s = some t) (hdone : t.isDone) :
    o.messages s' = o.messages s := by
  obtain ⟨t', ht', hkept⟩ := task?_later h ht
  obtain ⟨-, houtcome, hcomment, -⟩ := hkept.final hdone
  have hnews : o.news t' = o.news t := by rw [news, news, houtcome, hcomment]
  rw [messages, messages, ht, ht']
  simp only [Session.workflow?, Session.executionOf?_later h hkept, hnews]

/-- What has won in a session has won in a later one. -/
theorem Won.later (h : o.Won sent log s) (hlater : s.Later s') : o.Won sent log s' := by
  obtain ⟨t, ht, hdone, hdecides⟩ := h.row
  obtain ⟨t', ht', hkept⟩ := task?_later hlater ht
  exact ⟨⟨t', ht', hkept.isDone hdone, hdecides.later hkept hdone⟩, h.log⟩

theorem Won.messages_later (h : o.Won sent log s) (hlater : s.Later s') :
    o.messages s' = o.messages s := by
  obtain ⟨t, ht, hdone, -⟩ := h.row
  exact Order.messages_later hlater ht hdone

/-- What was conducted up to a session was conducted up to a later one. -/
theorem Conducted.later (h : o.Conducted log s) (hlater : s.Later s') : o.Conducted log s' := by
  rcases h with hidle | ⟨sent, hwon, hsent⟩
  · exact .inl hidle
  · refine .inr ⟨sent, hwon.later hlater, ?_⟩
    rw [hwon.messages_later hlater]
    exact hsent

theorem Won.append_quiet (h : o.Won sent log s) (he : e.Quiet) : o.Won sent (log ++ [e]) s :=
  ⟨h.row, h.log.append_quiet he⟩

/-- Whether a decision may be made does not depend on when it is asked. -/
theorem mayConclude_later (given : Json) (hlater : s.Later s') :
    o.MayConclude given t s' ↔ o.MayConclude given t s := by
  rw [MayConclude, MayConclude, Session.stepsOf, Session.stepsOf,
    Session.executionOf?_later hlater (.refl t)]

/-- An operation that is over stays so in a later session. -/
theorem Ended.later {result : Except Failure Transition} (h : o.Ended result log s)
    (hlater : s.Later s') : o.Ended result log s' := by
  have hwon : ∀ {sent}, o.Won sent log s → o.messages s' = o.messages s :=
    fun hwon => hwon.messages_later hlater
  unfold Ended at h ⊢
  split at h
  -- It has succeeded, and all that there is to tell was told.
  · rw [hwon h]
    exact h.later hlater
  -- It came too late: the task is done, so what it was told stays true.
  · refine ⟨h.1, fun t hseen hmay => ?_⟩
    obtain ⟨t', ht', hdone, rfl⟩ := h.2 t hseen ((mayConclude_later _ hlater).1 hmay)
    obtain ⟨t'', ht'', hkept⟩ := task?_later hlater ht'
    obtain ⟨hstatus, houtcome, -⟩ := hkept.final hdone
    exact ⟨t'', ht'', hkept.isDone hdone, by rw [Lifecycle.late, Lifecycle.late, hstatus, houtcome]⟩
  -- It failed otherwise: it may have won all the same, or it has changed nothing.
  · refine h.elim (fun h => .inl ?_) .inr
    rw [hwon h]
    exact h.later hlater
  · exact h
  · exact h

end Later

end Order
end Task
end Casework
