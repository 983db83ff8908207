/-
  Casework.Proofs.Task.Requirement

  Which decisions need a comment. Whoever may decide an open approval is held back by one thing
  only: the lack of a comment where the program of the task's execution asks for one. Then nothing
  is written; otherwise the decision is taken, whatever becomes of the messages about it. For an
  approval that a run has had created, the program asks for a comment exactly if the action does
  that the task was written by.
-/
import Casework.Proofs.Task.Provenance

namespace Casework

open Store Result

namespace Task

open Lifecycle

variable {α β : Type}

-- ============================================================================
-- Operations that end well
-- ============================================================================

/-- An operation leaves tasks as they are and ends well, with a certain result, whatever it is
answered. -/
def Dialogue.Yields (post : α → Prop) : Dialogue α → Prop
  | .done a => post a
  | .fail _ => False
  | .ask r next => r.Spares ∧ ∀ answer, (next answer).Yields post

namespace Dialogue.Yields

variable {post : α → Prop} {x : Dialogue α}

/-- A dialogue that spares the task and yields a value of a kind passes that on to what follows. -/
theorem bind {post' : β → Prop} {f : α → Dialogue β} (h : x.Yields post)
    (hf : ∀ a, post a → (f a).Yields post') : (x >>= f).Yields post' := by
  induction x with
  | done a => exact hf a h
  | fail e => exact h.elim
  | ask r next ih => exact ⟨h.1, fun answer => ih answer (h.2 answer)⟩

theorem request {r : Request} {next : r.Answer → Dialogue α} (h : r.Spares)
    (hnext : ∀ a, (next a).Yields post) : (Dialogue.request r >>= next).Yields post := ⟨h, hnext⟩

theorem only (h : x.Yields post) : x.Only Request.Spares := by
  induction x with
  | done a => trivial
  | fail f => trivial
  | ask r next ih => exact ⟨h.1, fun answer => ih answer (h.2 answer)⟩

end Dialogue.Yields

/-- Looking up the run of a task spares the task and always yields. -/
theorem yields_lookUp (t : Task) : (lookUp t).Yields fun _ => True := by
  unfold lookUp
  split
  · trivial
  · trivial
  · exact ⟨trivial, fun _ => trivial⟩

theorem yields_workflowOf (t : Task) : (workflowOf t).Yields fun _ => True := by
  refine .bind (yields_lookUp t) fun found _ => ?_
  split <;> trivial

/-- Sending messages spares the task and always yields, whether or not any arrives. -/
theorem yields_send (workflow : String) (messages : List Signal) :
    (send workflow messages).Yields fun _ => True := by
  induction messages with
  | nil => trivial
  | cons m rest ih => exact .request trivial fun _ => .bind ih fun _ _ => trivial

/-- Whether the run of a task can be told or not, what was asked for is done. -/
theorem yields_announce (t : Task) (messages : List Signal) :
    (announce t messages).Yields fun _ => True := by
  refine .bind (yields_workflowOf t) fun workflow _ => ?_
  cases workflow with
  | none => trivial
  | some workflow => exact yields_send workflow messages

-- ============================================================================
-- Answers that spare tasks
-- ============================================================================

section Spares

variable (reach : Reach) (id : String) (actor : AccessContext) {r : Request} (hr : r.Spares)

include hr

theorem exists_result_answer (s : Session) :
    ∃ a, (result (answer reach id actor r) s).1 = .ok a := by
  cases r with
  | write w => exact hr.elim
  | update given => exact hr.elim
  -- Only what leaves the store can fail, and each of these failures is caught.
  | signal workflow m =>
    rw [answer]
    split <;> exact ⟨_, rfl⟩
  | tell user title =>
    rw [answer]
    split
    · exact exists_result_tryCatch (fun _ _ => ⟨(), rfl⟩) s
    · exact ⟨(), rfl⟩
  | log action details =>
    rw [answer]
    split
    · exact exists_result_tryCatch (fun _ _ => ⟨(), rfl⟩) s
    · exact ⟨(), rfl⟩
  | _ => exact ⟨_, rfl⟩

/-- A request that spares the task leaves the table of tasks as it was. -/
theorem keeps_answer : Advances (.keeping Records.tasks) (answer reach id actor r) := by
  cases r with
  | write w => exact hr.elim
  | update given => exact hr.elim
  | commit => exact .commit
  | signal workflow m => exact .ite (.bind (.ask _) fun _ => .pure _) (.pure _)
  | tell user title =>
    refine .ite (.tryCatch ?_ fun _ => .pure _) (.pure _)
    exact (moves_tellAssigned (fun _ _ _ => rfl) _ _ _ _).advances
  | log action details => exact .ite (advances_record (fun _ _ _ => rfl) _ _ _ _ _) (.pure _)
  | _ => exact (Moves.of_records_eq fun _ => ⟨rfl, rfl, rfl⟩).advances

end Spares

namespace Order

variable {o : Order} {s s' : Session} {t : Task}

/-- What a part of an operation leads to in a session. -/
def carry (o : Order) (x : Dialogue α) (s : Session) : Except Failure α × Session :=
  result (x.run (Task.answer o.reach o.task o.actor)) s

theorem carry_ask (r : Request) (next : r.Answer → Dialogue α) :
    o.carry (.ask r next) s = result (Task.answer o.reach o.task o.actor r >>= fun a =>
      (next a).run (Task.answer o.reach o.task o.actor)) s :=
  rfl

theorem carry_request {r : Request} {a : r.Answer}
    (h : result (Task.answer o.reach o.task o.actor r) s = (.ok a, s')) :
    o.carry (Dialogue.request r) s = (.ok a, s') := by
  rw [Dialogue.request, carry_ask, result_bind, h]
  rfl

/-- A write that applies alters the row and hands it back as altered. -/
theorem carry_write_of_applies {w : Write} (ht : o.task? s = some t) (h : w.applies t) :
    o.carry (Dialogue.request (.write w)) s = (.ok (some (w.apply s.now.bare t)), { s with
      working := s.working.alterTask o.task o.actor.org (w.apply s.now.bare) }) := by
  have hresult := result_writeTask w o.task o.actor.org s
  rw [show s.task? o.task o.actor.org = some t from ht] at hresult
  exact carry_request (hresult.trans (if_pos h))

/-- A write that does not apply changes nothing. -/
theorem carry_write_of_not_applies {w : Write} (ht : o.task? s = some t) (h : ¬ w.applies t) :
    o.carry (Dialogue.request (.write w)) s = (.ok none, s) := by
  have hresult := result_writeTask w o.task o.actor.org s
  rw [show s.task? o.task o.actor.org = some t from ht] at hresult
  exact carry_request (hresult.trans (if_neg h))

theorem carry_read (ht : o.task? s = some t) :
    o.carry (Dialogue.request .read) s = (.ok (some t), s) :=
  carry_request (by rw [← ht]; rfl)

/-- An operation goes on with what the first part of it has led to. -/
theorem carry_bind {x : Dialogue α} {f : α → Dialogue β} {a : α} (h : o.carry x s = (.ok a, s')) :
    o.carry (x >>= f) s = o.carry (f a) s' := by
  induction x generalizing s with
  | done b =>
    cases h
    rfl
  | fail e => cases h
  | ask r next ih =>
    obtain ⟨b, s₁, hb, hrest⟩ := result_bind_eq_ok_iff.1 h
    show o.carry (.ask r fun b => next b >>= f) s = _
    rw [carry_ask, result_bind, hb]
    exact ih b hrest

/-- A value that is there goes on to what follows. -/
theorem carry_lift {x : Except Failure α} {f : α → Dialogue β} {a : α} (h : x = .ok a) :
    o.carry (Dialogue.lift x >>= f) s = o.carry (f a) s := by
  rw [h]
  rfl

/-- A condition that holds goes on to what follows. -/
theorem carry_require {c : Bool} {failure : Failure} {next : Unit → Dialogue α} (h : c = true) :
    o.carry (Dialogue.require c failure >>= next) s = o.carry (next ()) s := by
  rw [h]
  rfl

/-- A task that is there goes on to what follows. -/
theorem carry_load {f : Task → Dialogue α} (ht : o.task? s = some t) :
    o.carry (load >>= f) s = o.carry (f t) s := by
  exact carry_bind (carry_bind (carry_read ht))

/-- Looking up the execution of a task goes on with the row as it stands. -/
theorem carry_executionOf {f : Option Execution → Dialogue α} :
    o.carry (executionOf t >>= f) s = o.carry (f (s.executionOf? t o.actor.org)) s := by
  have hfound : o.carry (lookUp t) s = (.ok (.ok (s.executionOf? t o.actor.org)), s) := by
    unfold lookUp
    split
    case h_1 hnone => rw [Session.executionOf?_none (.inl hnone)]; rfl
    case h_2 hempty => rw [Session.executionOf?_none (.inr hempty)]; rfl
    case h_3 hne hid => rw [Session.executionOf?_some hid hne]; rfl
  exact carry_bind (carry_bind hfound)

/-- What is answered leads to the end of an operation that spares tasks. -/
theorem exists_carry {post : α → Prop} {x : Dialogue α} (h : x.Yields post) (s : Session) :
    ∃ a, post a ∧ (o.carry x s).1 = .ok a := by
  induction x generalizing s with
  | done a => exact ⟨a, h, rfl⟩
  | fail f => exact h.elim
  | ask r next ih =>
    obtain ⟨a, ha⟩ := exists_result_answer o.reach o.task o.actor h.1 s
    rw [carry_ask, result_bind]
    rcases hresult : result (Task.answer o.reach o.task o.actor r) s with ⟨_, s'⟩
    rw [hresult] at ha
    cases ha
    exact ih a (h.2 a) s'

/-- A dialogue that spares the task succeeds from any settled state. -/
theorem carry_of_yields {post : α → Prop} {x : Dialogue α} (h : x.Yields post) (hs : s.Settled) :
    ∃ a s', post a ∧ o.carry x s = (.ok a, s') ∧ s'.working.tasks = s.working.tasks := by
  obtain ⟨a, hpost, ha⟩ := exists_carry h s
  have hkept : (Progress.keeping Records.tasks).From s.working (o.carry x s).2 :=
    h.only.advances (fun _ hr => keeps_answer o.reach o.task o.actor hr) s.working s ⟨rfl, hs ▸ rfl⟩
  rcases hcarry : o.carry x s with ⟨_, s'⟩
  rw [hcarry] at ha hkept
  cases ha
  exact ⟨a, s', hpost, rfl, hkept.working⟩

end Order

-- ============================================================================
-- Decisions
-- ============================================================================

/-- The write that a decision asks for. -/
def Lifecycle.Decision.write (decision : Decision) (comment : Option String) : Write :=
  .decide (some decision.outcome) comment

/-- The comment that a decision keeps: one that is not blank, without the blanks around it. -/
def kept (comment : Option String) : Option String := (comment.map Text.trim).filter (· != "")

theorem commentOf_optText (comment : Option String) :
    commentOf (.optText comment) = .ok (kept comment) := by
  cases comment <;> rfl

/-- A comment is kept as none exactly where it is missing or blank. -/
theorem kept_eq_none_iff {comment : Option String} :
    kept comment = none ↔ ∀ text ∈ comment, Text.trim text = "" := by
  cases comment <;> simp [kept]

namespace Order

variable {o : Order} {s s' : Session} {t : Task}

/-- An approval that is open is decided, whoever can be told. -/
theorem carry_settle (decision : Decision) (comment : Option String) (ht : o.task? s = some t)
    (happroval : t.isApproval) (hopen : t.isDone = false) :
    ∃ transition s', o.carry (settle decision o.actor o.task comment) s = (.ok transition, s') ∧
      transition.task = (decision.write comment).apply s.now.bare t ∧
      s'.working.tasks =
        (s.working.alterTask o.task o.actor.org
          ((decision.write comment).apply s.now.bare)).tasks := by
  have happlies : (decision.write comment).applies t := by
    rw [Decision.write, Write.applies, hopen, happroval]
    rfl
  have hwrite := carry_write_of_applies ht happlies
  -- What is left to do once the write is committed leaves the task as it was written.
  have hrest : (do
      let signaled ← announce ((decision.write comment).apply s.now.bare t)
        [.completed o.task o.actor.user, .decided decision.outcome comment o.actor.user]
      Dialogue.request (.log "status_changed"
        (.obj [("outcome", .text decision.outcome), ("comment", .optText comment)]))
      pure ({ task := (decision.write comment).apply s.now.bare t, signaled } : Transition)).Yields
        fun transition : Transition => transition.task =
          (decision.write comment).apply s.now.bare t :=
    .bind (yields_announce _ _) fun _ _ => .request trivial fun _ => rfl
  have hsettled : (s.alter o.task o.actor.org
    ((decision.write comment).apply s.now.bare)).Settled := rfl
  obtain ⟨transition, s', htask, hended, htasks⟩ := carry_of_yields (o := o) hrest hsettled
  exact ⟨transition, s', (carry_bind hwrite).trans hended, htask, htasks⟩

/-- What an operation leads to, carried out in one go. -/
def perform (o : Order) (s : Session) : Except Failure Transition × Session :=
  transact (o.dialogue.run (Task.answer o.reach o.task o.actor)) s

/-- An operation whose write is kept leaves the task as it was written. -/
theorem perform_of_written {w : Write} {transition : Transition} (ht : o.task? s = some t)
    (hcarry : o.carry o.dialogue s = (.ok transition, s'))
    (htask : transition.task = w.apply s.now.bare t)
    (htasks : s'.working.tasks =
      (s.working.alterTask o.task o.actor.org (w.apply s.now.bare)).tasks) :
    (o.perform s).1 = .ok transition ∧ o.task? (o.perform s).2 = some transition.task := by
  have hsame : o.task? s' = o.task? (s.alter o.task o.actor.org (w.apply s.now.bare)) :=
    congrArg (List.find? _) htasks
  have hfound : o.task? s' = some transition.task := by
    rw [hsame, htask, task?, Session.task?_alter (fun u hu => Write.isOf_apply _ _ hu),
      if_pos ⟨rfl, rfl⟩, show s.task? o.task o.actor.org = some t from ht]
    rfl
  have hresult : result (o.dialogue.run (Task.answer o.reach o.task o.actor)) s =
      (.ok transition, s') :=
    hcarry
  rw [perform, transact_eq, hresult]
  exact ⟨rfl, hfound⟩

/-- Somebody who may decide an approval asks for a decision about it while it is open. -/
structure MayDecide (o : Order) (decision : Decision) (comment : Option String) (s : Session)
    (t : Task) : Prop where
  operation : o.operation = .conclude decision (.optText comment)
  found : o.task? s = some t
  approval : t.isApproval
  undecided : t.isDone = false
  permitted : o.actor.canMutate t.assignment

section MayDecide

variable {decision : Decision} {comment : Option String} (h : o.MayDecide decision comment s t)
  {needed : Bool}
  (hneeded : requiresComment (s.stepsOf t o.actor.org) (.optText t.creator) = .ok needed)

include h hneeded

/-- All that is left to check is whether there is a comment. -/
theorem carry_dialogue :
    o.carry o.dialogue s = o.carry (Dialogue.require (!needed || (kept comment).isSome)
      (.invalid "A comment is required for this approval step") >>= fun _ =>
        settle decision o.actor o.task (kept comment)) s := by
  have hrequired : Failure.ofFault (requiresComment
      (((s.executionOf? t o.actor.org).map Execution.steps).getD .null) (.optText t.creator)) =
      .ok needed := by
    rw [← Session.stepsOf, hneeded]
    rfl
  rw [dialogue, h.operation]
  dsimp only
  rw [conclude, carry_lift (commentOf_optText comment), carry_load h.found,
    carry_require h.permitted,
    carry_require h.approval, carry_require (by rw [h.undecided]; rfl), carry_executionOf,
    carry_lift hrequired]

/-- Without a comment that is needed a decision is refused, and everything stays as it is. -/
theorem perform_of_lacking (hs : s.Settled) (hlacking : needed ∧ kept comment = none) :
    o.perform s = (.error (.invalid "A comment is required for this approval step"), s) := by
  refine transact_of_reads hs ((carry_dialogue h hneeded).trans ?_)
  rw [hlacking.1, hlacking.2]
  rfl

/-- Otherwise the decision is taken. -/
theorem perform_of_not_lacking (hlacking : ¬ (needed ∧ kept comment = none)) :
    ∃ transition, (o.perform s).1 = .ok transition ∧
      transition.task = (decision.write (kept comment)).apply s.now.bare t ∧
      o.task? (o.perform s).2 = some transition.task := by
  have hallowed : (!needed || (kept comment).isSome) = true := by
    cases needed <;> cases hkept : kept comment <;> simp_all
  obtain ⟨transition, s', hsettle, htask, htasks⟩ :=
    carry_settle decision (kept comment) h.found h.approval h.undecided
  have hcarry : o.carry o.dialogue s = (.ok transition, s') :=
    ((carry_dialogue h hneeded).trans (carry_require hallowed)).trans hsettle
  obtain ⟨hok, hfound⟩ := perform_of_written h.found hcarry htask htasks
  exact ⟨transition, hok, htask, hfound⟩

end MayDecide

end Order

-- ============================================================================
-- Approvals of runs
-- ============================================================================

/-- The program of the execution of a task says what the instruction says that the task stems
from. -/
theorem Stems.requiresComment {s : Session} {p : Program} (hwell : p.WellFormed) {i : Instruction}
    (hi : i ∈ p) {plan : TaskPlan} (hcreates : i.operation = .work (.createTask plan)) {t : Task}
    (h : t.Stems s.working p i) :
    requiresComment (s.stepsOf t t.org) (.optText t.creator) = .ok plan.requireComment := by
  obtain ⟨e, hexecution, honly, hid, horg, hsteps⟩ := h.execution
  have hfound : s.execution? e.id t.org = some e := horg ▸ honly.find?
  rw [Session.stepsOf, Session.executionOf?_some hexecution hid, hfound, h.creator]
  show Task.requiresComment e.steps (.text i.id) = _
  rw [hsteps, requiresComment_toJson hwell hi hcreates]

/-- An approval that a run has had created is decided by whoever may decide it, unless its action
asks for a comment and there is none: this, and nothing else, is refused as malformed. -/
theorem Arises.refused_iff {a : Trigger.Attempt} {s created : Session}
    {d : Definition} {p : Program}
    {id : String} (h : Task.Arises a s d p id created) (deeds : List Deed) {o : Order}
    (htask : o.task = id) (horg : o.actor.org = a.actor.org) {decision : Decision}
    {comment : Option String} {t : Task}
    (hmay : o.MayDecide decision comment (Deed.performAll created deeds) t) :
    ∃ action i plan, t.WrittenBy d p action i plan ∧
      ((∃ message, o.perform (Deed.performAll created deeds) =
          (.error (.invalid message), Deed.performAll created deeds)) ↔
        (action.config.value "requireComment").truthy ∧ ∀ text ∈ comment, Text.trim text = "") ∧
      (¬ ((action.config.value "requireComment").truthy ∧ ∀ text ∈ comment, Text.trim text = "") →
        ∃ transition, (o.perform (Deed.performAll created deeds)).1 = .ok transition ∧
          transition.task =
            (decision.write (kept comment)).apply (Deed.performAll created deeds).now.bare t ∧
          o.task? (o.perform (Deed.performAll created deeds)).2 = some transition.task) := by
  obtain ⟨t', action, i, plan, hfound, hwritten, hstems, horg'⟩ := h.written deeds
  -- The task is the one that stems from the instruction, as both are found under the same id.
  obtain rfl : t' = t := by
    rw [← htask, ← horg] at hfound
    exact Option.some.inj (hfound.symm.trans hmay.found)
  have hi : i ∈ p := hwritten.authors.mem.2
  -- The step that created the task is still in the stored program, with the plan compiled into it.
  have hneeded : requiresComment ((Deed.performAll created deeds).stepsOf t' o.actor.org)
      (.optText t'.creator) = .ok plan.requireComment := by
    rw [horg, ← horg']
    exact hstems.requiresComment (Definition.wellFormed_of_compile h.compiled) hi hwritten.creates
  have hs : (Deed.performAll created deeds).Settled := Deed.settled_performAll h.settled deeds
  refine ⟨action, i, plan, hwritten, ?_, ?_⟩
  · rw [← hwritten.describes.requireComment, ← kept_eq_none_iff]
    constructor
    -- Had the comment not been lacking, the decision would have been taken.
    · rintro ⟨message, hrefused⟩
      by_contra hnot
      obtain ⟨_, htaken, -⟩ := Order.perform_of_not_lacking hmay hneeded hnot
      rw [hrefused] at htaken
      cases htaken
    · exact fun hlacking => ⟨_, Order.perform_of_lacking hmay hneeded hs hlacking⟩
  · rw [← hwritten.describes.requireComment, ← kept_eq_none_iff]
    exact Order.perform_of_not_lacking hmay hneeded

/-- Bob approves what he was asked to decide. -/
def approving (comment : Option String) : Order where
  task := "task-1"
  actor := .build "bob" "org" none false []
  reach := {}
  operation := .conclude .approve (.optText comment)

open Trigger in
/-- Blanks are no comment. -/
theorem refused_iff_approving :
    ∃ d p created, Arises (attemptWith {}) (storing asking) d p "task-1" created ∧
      (∃ message, (approving (some "  ")).perform created = (.error (.invalid message), created)) ∧
      ∃ transition, ((approving (some " fine ")).perform created).1 = .ok transition ∧
        transition.task.comment = some "fine" := by
  obtain ⟨d, p, created, t, harises, hneeds, hfound, ⟨happroval, hopen, hassignee⟩, -⟩ :=
    exists_arises_asking
  -- The assignee of the task may decide it, whatever the comment.
  have hmay : ∀ comment, (approving comment).MayDecide .approve comment created t := fun comment =>
    ⟨rfl, hfound, happroval, hopen, by rw [AccessContext.canMutate, assignment, hassignee]; rfl⟩
  have hneeded : ∀ {action i plan}, t.WrittenBy d p action i plan →
      (action.config.value "requireComment").truthy :=
    fun hwritten => List.all_eq_true.1 hneeds _ hwritten.authors.mem.1
  obtain ⟨action, i, plan, hwritten, hrefused, -⟩ :=
    harises.refused_iff [] rfl rfl (hmay (some "  "))
  obtain ⟨_, _, _, -, -, htaken⟩ := harises.refused_iff [] rfl rfl (hmay (some " fine "))
  obtain ⟨transition, hok, htask, -⟩ := htaken fun hblank => absurd (hblank.2 _ rfl) (by decide)
  refine ⟨d, p, created, harises, hrefused.2 ⟨hneeded hwritten, ?_⟩, transition, hok, ?_⟩
  · intro text htext
    cases htext
    decide
  · rw [htask]
    with_unfolding_all exact rfl

end Task
end Casework
