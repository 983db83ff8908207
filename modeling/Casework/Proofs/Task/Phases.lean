/-
  Casework.Proofs.Task.Phases

  The two phases of an operation on a task. In the first one it looks at the store, and can still be
  refused; its write is the last thing that it asks for. In the second one the write is committed
  before all else, others hear of it, and the entry of the audit trail comes last. From the commit
  on nothing that is answered can change what the operation has done or that it ends well.
-/
import Casework.Proofs.Store.Commuting
import Casework.Proofs.Task.Course
import Casework.Proofs.Task.Requirement

namespace Casework

open Store

namespace Task

open Lifecycle

variable {α β : Type}

-- ============================================================================
-- Phases
-- ============================================================================

namespace Request

/-- Requests that only look at the store. -/
def Looks : Request → Prop
  | .read | .isThere | .execution _ => True
  | _ => False

/-- Requests that look at the store, or write to a task. -/
def Inward : Request → Prop
  | .write _ | .update _ => True
  | r => r.Looks

/-- Requests after a write is committed: to look for an execution, and what reaches others. -/
def Outward : Request → Prop
  | .execution _ | .signal _ _ | .tell _ _ | .log _ _ => True
  | _ => False

/-- The task that a request has written, if it has. -/
def written : (r : Request) → r.Answer → Option Task
  | .write _, answer => answer
  | .update _, answer => answer
  | _, _ => none

/-- Whether a run was told by a request. -/
def delivered : (r : Request) → r.Answer → Bool
  | .signal _ _, sent => sent
  | _, _ => false

/-- Whether a request is for an entry of the audit trail. -/
def logs : Request → Bool
  | .log _ _ => true
  | _ => false

end Request

namespace Dialogue

/-- The second phase of an operation that has written a task. Only outward requests are left, and
whatever they are answered, it ends well, with the written task, and says whether a run was told.
The last request is for the entry of the audit trail. -/
def Closes (t : Task) (showable : Bool) : (told logged : Bool) → Dialogue Transition → Prop
  | told, logged, .done transition =>
    transition = { task := t, signaled := told, showable } ∧ logged = true
  | _, _, .fail _ => False
  | told, logged, .ask r next => r.Outward ∧ logged = false ∧
    ∀ answer, (next answer).Closes t showable (told || r.delivered answer) r.logs

/-- The first phase of an operation. It can end, with nobody told, until it has written a task; then
the write is committed, and the second phase follows. -/
def Opens : Dialogue Transition → Prop
  | .done transition => transition.signaled = false
  | .fail _ => True
  | .ask r next => r.Inward ∧ ∀ answer,
    match r.written answer with
    | none => (next answer).Opens
    | some t => ∃ showable rest, next answer = .ask .commit rest ∧
        (rest ()).Closes t showable false false

end Dialogue

-- ============================================================================
-- Looking
-- ============================================================================

theorem looks_lookUp (t : Task) : (lookUp t).Only Request.Looks := by
  unfold lookUp
  split
  · trivial
  · trivial
  · exact ⟨trivial, fun _ => trivial⟩

theorem looks_executionOf (t : Task) : (executionOf t).Only Request.Looks := by
  refine .bind (looks_lookUp t) fun found => ?_
  cases found <;> trivial

namespace Dialogue.Opens

variable {next : α → Dialogue Transition}

/-- A request that only looks keeps the dialogue in its opening. -/
theorem look {r : Request} (hr : r.Looks) {next : r.Answer → Dialogue Transition}
    (h : ∀ answer, (next answer).Opens) : (Dialogue.ask r next).Opens := by
  cases r with
  | read => exact ⟨trivial, h⟩
  | isThere => exact ⟨trivial, h⟩
  | execution id => exact ⟨trivial, h⟩
  | _ => exact hr.elim

/-- A part that only looks keeps the dialogue in its opening, whatever it hands on. -/
theorem bind {x : Dialogue α} (hx : x.Only Request.Looks) (h : ∀ a, (next a).Opens) :
    (x >>= next).Opens := by
  induction x with
  | done a => exact h a
  | fail f => trivial
  | ask r rest ih => exact look hx.1 fun answer => ih answer (hx.2 answer)

theorem lift {x : Except Failure α} (h : ∀ a, (next a).Opens) :
    (Dialogue.lift x >>= next).Opens := by
  cases x with
  | ok a => exact h a
  | error f => trivial

theorem require {c : Bool} {f : Failure} {next : Unit → Dialogue Transition} (h : (next ()).Opens) :
    (Dialogue.require c f >>= next).Opens := by
  cases c with
  | true => exact h
  | false => trivial

theorem load {next : Task → Dialogue Transition} (h : ∀ t, (next t).Opens) :
    (load >>= next).Opens := by
  refine ⟨trivial, fun answer => ?_⟩
  cases answer with
  | none => trivial
  | some t => exact h t

/-- A write leaves the opening exactly where it has written and the commit comes next. -/
theorem write {w : Write} {next : Option Task → Dialogue Transition} (hnone : (next none).Opens)
    (hsome : ∀ t, ∃ showable rest, next (some t) = .ask .commit rest ∧
      (rest ()).Closes t showable false false) :
    (Dialogue.request (.write w) >>= next).Opens := by
  refine ⟨trivial, fun answer => ?_⟩
  cases answer with
  | none => exact hnone
  | some t => exact hsome t

end Dialogue.Opens

-- ============================================================================
-- Telling others
-- ============================================================================

namespace Dialogue.Closes

variable {t : Task} {showable told : Bool}

theorem log {action : String} {details : Json} {transition : Transition}
    (h : transition = { task := t, signaled := told, showable }) :
    (Dialogue.request (.log action details) >>= fun _ => .done transition).Closes t showable
      told false := by
  refine ⟨trivial, rfl, fun _ => ⟨?_, rfl⟩⟩
  show transition = { task := t, signaled := told || false, showable }
  rw [h, Bool.or_false]

/-- Nothing is asked for after the entry of the audit trail. -/
theorem exists_done {x : Dialogue Transition} (h : x.Closes t showable told true) :
    ∃ transition, x = .done transition := by
  cases x with
  | done transition => exact ⟨transition, rfl⟩
  | fail f => exact h.elim
  | ask r next => exact absurd h.2.1.symm Bool.false_ne_true

/-- Sending messages keeps the dialogue in its closing, with what was told put together. -/
theorem send {workflow : String} {messages : List Signal} {next : Bool → Dialogue Transition}
    (h : ∀ sent, (next sent).Closes t showable (told || sent) false) :
    (send workflow messages >>= next).Closes t showable told false := by
  induction messages generalizing told next with
  | nil =>
    have hnone := h false
    rw [Bool.or_false] at hnone
    exact hnone
  | cons m rest ih =>
    refine ⟨trivial, rfl, fun sent => ?_⟩
    show ((Lifecycle.send workflow rest >>= fun others => pure (sent || others)) >>= next).Closes
      t showable (told || sent) false
    rw [bind_assoc]
    refine ih fun others => ?_
    rw [Bool.or_assoc]
    exact h (sent || others)

theorem workflowOf {of : Task} {next : Option String → Dialogue Transition}
    (h : ∀ workflow, (next workflow).Closes t showable told false) :
    (workflowOf of >>= next).Closes t showable told false := by
  unfold Lifecycle.workflowOf lookUp
  rw [bind_assoc]
  split
  case h_1 | h_2 => exact h none
  case h_3 =>
    refine ⟨trivial, rfl, fun found => ?_⟩
    show Closes t showable (told || false) false _
    rw [Bool.or_false]
    rcases found with f | none | execution
    · exact h none
    · exact h none
    · exact h _

/-- Announcing the news keeps the dialogue in its closing, as sending it does. -/
theorem announce {of : Task} {messages : List Signal} {next : Bool → Dialogue Transition}
    (h : ∀ sent, (next sent).Closes t showable (told || sent) false) :
    (announce of messages >>= next).Closes t showable told false := by
  unfold Lifecycle.announce
  rw [bind_assoc]
  refine workflowOf fun workflow => ?_
  cases workflow with
  | none =>
    have hnone := h false
    rw [Bool.or_false] at hnone
    exact hnone
  | some workflow => exact send h

/-- In its second phase an operation spares tasks, and ends well. -/
theorem yields {logged : Bool} {x : Dialogue Transition} (h : x.Closes t showable told logged) :
    x.Yields fun transition => transition.task = t ∧ transition.showable = showable := by
  induction x generalizing told logged with
  | done transition =>
    rw [h.1]
    exact ⟨rfl, rfl⟩
  | fail f => exact h.elim
  | ask r next ih =>
    refine ⟨?_, fun answer => ih answer (h.2.2 answer)⟩
    cases r with
    | write w => exact h.1.elim
    | update given => exact h.1.elim
    | _ => trivial

end Dialogue.Closes

-- ============================================================================
-- Operations
-- ============================================================================

theorem opens_claim (actor : AccessContext) : (claim actor).Opens := by
  refine .load fun t => .require (.require (.require (.write ?_ fun claimed => ?_)))
  · exact .look (r := .isThere) trivial fun _ =>
      .require (.look (r := .read) trivial fun _ => trivial)
  · exact ⟨true, _, rfl, .log rfl⟩

/-- A change of the mutable fields writes once at most, and closes after its commit. -/
theorem opens_mutate (actor : AccessContext) (given : Fields) : (mutate actor given).Opens := by
  unfold mutate
  extract_lets edit
  split
  case h_1 => trivial
  case h_2 =>
    refine .load fun t => .require ⟨trivial, fun updated => ?_⟩
    cases updated with
    | none => trivial
    | some changed =>
      refine ⟨Changes.areShowable given, _, rfl, ?_⟩
      extract_lets record
      split
      case h_1 => exact ⟨trivial, rfl, fun _ => .log rfl⟩
      case h_2 => exact .log rfl

theorem opens_finish (actor : AccessContext) (id before : String) :
    (finish actor id before).Opens :=
  .write (.load fun _ => rfl) fun _ => ⟨true, _, rfl, .announce fun _ => .log rfl⟩

theorem opens_reopen (before after : String) : (reopen before after).Opens :=
  .write (.load fun _ => trivial) fun _ => ⟨true, _, rfl, .log rfl⟩

theorem opens_setStatus (actor : AccessContext) (id : String) (status : Json) :
    (setStatus actor id status).Opens := by
  refine .require (.load fun t => .require (.require ?_))
  split
  · exact opens_finish actor id t.status
  · exact .require (opens_reopen t.status _)

theorem opens_settle (decision : Decision) (actor : AccessContext) (id : String)
    (comment : Option String) : (settle decision actor id comment).Opens :=
  .write (.load fun _ => .require trivial) fun _ => ⟨true, _, rfl, .announce fun _ => .log rfl⟩

theorem opens_conclude (decision : Decision) (actor : AccessContext) (id : String)
    (comment : Json) :
    (conclude decision actor id comment).Opens :=
  .lift fun comment => .load fun t => .require (.require (.require
    (.bind (looks_executionOf t) fun _ => .lift fun _ => .require
      (opens_settle decision actor id comment))))

/-- Every operation has these two phases. -/
theorem Order.opens (o : Order) : o.dialogue.Opens := by
  unfold dialogue
  split
  · exact opens_claim _
  · exact opens_mutate _ _
  · exact opens_setStatus _ _ _
  · exact opens_conclude _ _ _ _

-- ============================================================================
-- Answers in the first phase
-- ============================================================================

section Answers

variable (reach : Reach) (id : String) (actor : AccessContext)

/-- In the first phase only tasks are written to, nothing is committed, and the engine hears of
nothing. -/
theorem moves_inward {R : Progress}
    (htasks : ∀ (records : Records) (tasks : List Task),
      R.rel records { records with tasks }) {r : Request}
    (hr : r.Inward) : Moves R (answer reach id actor r) := by
  have hfind : ∀ id, Moves R (Store.find? id actor.org : Tx (Option Task)) :=
    fun _ => .of_records_eq fun _ => ⟨rfl, rfl, rfl⟩
  have hchange : ∀ (p : Task → Bool) (f : Task → Task), Moves R (Store.change p f) :=
    fun p f => .change fun records => htasks records _
  -- The requests after the write are none of the inward ones, which the last case rejects.
  cases r with
  | read => exact hfind id
  | isThere => exact .map _ (hfind id)
  | execution e => exact .of_records_eq fun _ => ⟨rfl, rfl, rfl⟩
  | write w =>
    refine .bind .bareNow fun moment => .bind (hfind id) fun found => ?_
    cases found with
    | none => exact .pure _
    | some t => exact .ite (.bind (hchange _ _) fun _ => hfind id) (.pure _)
  | update given =>
    refine .bind (hfind id) fun found => ?_
    cases found with
    | none => exact .pure _
    | some t =>
      exact .bind (.lift _) fun _ => .bind .now fun _ => .bind (hchange _ _) fun _ => .pure _
  | _ => exact hr.elim

/-- What is asked for in the first phase heeds neither the engine nor the audit trail. -/
theorem commutes_inward {f : Session → Session} [Session.Around f] {r : Request} (hr : r.Inward) :
    Commutes f (answer reach id actor r) := by
  cases r with
  | read => exact .find? id actor.org
  | isThere => exact .map _ (.find? id actor.org)
  | execution e => exact .map _ (.find? e actor.org)
  | write w => exact .writeTask w id actor.org
  | update given => exact .updateTask id actor.org given
  | _ => exact hr.elim

/-- A request that has written no task has changed nothing. -/
theorem unchanged_of_written_eq_none {r : Request} (hr : r.Inward) (s : Session)
    (h : ∀ a, (result (answer reach id actor r) s).1 = .ok a → r.written a = none) :
    (result (answer reach id actor r) s).2 = s := by
  cases r with
  | read => rfl
  | isThere => rfl
  | execution e => rfl
  | write w =>
    have hresult := result_writeTask w id actor.org s
    rw [answer] at h ⊢
    cases ht : s.task? id actor.org with
    | none =>
      rw [ht] at hresult
      rw [hresult]
    | some t =>
      rw [ht] at hresult
      -- The row was written, so the answer says so, against the hypothesis.
      dsimp only at hresult
      split at hresult
      case isTrue =>
        have hnone := h _ (congrArg Prod.fst hresult)
        cases hnone
      case isFalse => rw [hresult]
  | update given =>
    have hresult := result_updateTask id actor.org given s
    rw [answer] at h ⊢
    cases ht : s.task? id actor.org with
    | none =>
      rw [ht] at hresult
      rw [hresult]
    | some t =>
      rw [ht] at hresult
      cases hchanges : Changes.ofFields given with
      | error f =>
        rw [hchanges] at hresult
        rw [hresult]
      | ok c =>
        rw [hchanges] at hresult
        have hnone := h _ (congrArg Prod.fst hresult)
        cases hnone
  | _ => exact hr.elim

end Answers

end Task
end Casework
