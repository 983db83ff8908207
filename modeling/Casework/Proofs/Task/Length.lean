/-
  Casework.Proofs.Task.Length

  How many requests an operation can have. Whatever it is answered, it comes to its end after a few
  of them, so that it only has to be given enough turns.
-/
import Casework.Proofs.Task.Turns

namespace Casework.Task

open Lifecycle

variable {α β : Type} {m n : Nat}

/-- A dialogue ends after a number of requests at most, whatever it is answered. -/
def Dialogue.Within : Nat → Dialogue α → Prop
  | _, .done _ | _, .fail _ => True
  | 0, .ask _ _ => False
  | n + 1, .ask _ next => ∀ answer, (next answer).Within n

-- ============================================================================
-- Rules
-- ============================================================================

namespace Dialogue.Within

/-- A dialogue within some turns is within more. -/
theorem mono {x : Dialogue α} (h : x.Within m) (hle : m ≤ n) : x.Within n := by
  induction x generalizing m n with
  | done a => cases n <;> trivial
  | fail e => cases n <;> trivial
  | ask r next ih =>
    cases m with
    | zero => cases h
    | succ m =>
      cases n with
      | zero => omega
      | succ n => exact fun answer => ih answer (h answer) (by omega)

theorem done (a : α) : (Dialogue.done a).Within n := by
  cases n <;> trivial

theorem fail (f : Failure) : (Dialogue.fail f : Dialogue α).Within n := by
  cases n <;> trivial

/-- Requests of one operation after those of another. -/
theorem bind {x : Dialogue α} {f : α → Dialogue β} (h : x.Within m) (hf : ∀ a, (f a).Within n) :
    (x >>= f).Within (m + n) := by
  induction x generalizing m with
  | done a => exact (hf a).mono (by omega)
  | fail e => exact .fail e
  | ask r next ih =>
    cases m with
    | zero => cases h
    | succ m =>
      rw [Nat.succ_add]
      exact fun answer => ih answer (h answer)

theorem request {r : Request} {next : r.Answer → Dialogue α} (h : ∀ a, (next a).Within n) :
    (Dialogue.request r >>= next).Within (n + 1) := h

theorem require {c : Bool} {f : Failure} {next : Unit → Dialogue α} (h : (next ()).Within n) :
    (Dialogue.require c f >>= next).Within n := by
  cases c
  · exact .fail f
  · exact h

theorem lift {x : Except Failure β} {next : β → Dialogue α} (h : ∀ b, (next b).Within n) :
    (Dialogue.lift x >>= next).Within n := by
  cases x with
  | ok b => exact h b
  | error f => exact .fail f

theorem load {next : Task → Dialogue α} (h : ∀ t, (next t).Within n) :
    (Lifecycle.load >>= next).Within (n + 1) := by
  refine fun answer => ?_
  cases answer with
  | none => exact .fail missing
  | some t => exact h t

end Dialogue.Within

open Dialogue (Within)

-- ============================================================================
-- Operations
-- ============================================================================

theorem within_lookUp (t : Task) : (lookUp t).Within 1 := by
  unfold lookUp
  split
  · exact .done _
  · exact .done _
  · exact fun _ => trivial

theorem within_executionOf (t : Task) : (executionOf t).Within 1 := by
  refine .bind (n := 0) (within_lookUp t) fun found => ?_
  cases found <;> trivial

theorem within_workflowOf (t : Task) : (workflowOf t).Within 1 := by
  refine .bind (n := 0) (within_lookUp t) fun found => ?_
  split <;> exact .done _

theorem within_send (workflow : String) (messages : List Signal) :
    (send workflow messages).Within messages.length := by
  induction messages with
  | nil => trivial
  | cons m rest ih => exact .request fun _ => .bind (n := 0) ih fun _ => trivial

theorem within_announce (t : Task) {messages : List Signal} (h : messages.length = n) :
    (announce t messages).Within (n + 1) := by
  rw [← h, Nat.add_comm]
  refine .bind (within_workflowOf t) fun workflow => ?_
  cases workflow with
  | none => exact .done false
  | some workflow => exact within_send workflow messages

/-- A claim takes four turns at most. -/
theorem within_claim (actor : AccessContext) : (claim actor).Within 4 := by
  refine .load fun t => .require (.require (.require (.request fun claimed => ?_)))
  cases claimed with
  | none => exact .request fun _ => .require (.request fun _ => .fail _)
  | some t => exact .request fun _ => .request fun _ => .done _

/-- An edit takes five turns at most. -/
theorem within_mutate (actor : AccessContext) (given : Fields) : (mutate actor given).Within 5 := by
  unfold mutate
  extract_lets edit
  -- One turn to read, one to update, and three at most for what follows an update.
  have hedit : ∀ u, (edit u).Within 5 := by
    refine fun _ => .load fun t => .require (.request fun updated => ?_)
    cases updated with
    | none => exact .fail missing
    | some updated =>
      refine .request fun _ => ?_
      extract_lets record
      have hrecord : ∀ u, (record u).Within 1 := fun _ => .request fun _ => .done _
      split
      · exact .request hrecord
      · exact (hrecord ()).mono (by omega)
  split
  · exact .fail _
  · exact hedit ()

theorem within_finish (actor : AccessContext) (id before : String) :
    (finish actor id before).Within 5 := by
  refine .request fun completed => ?_
  cases completed with
  | none => exact .load fun t => .done _
  | some t =>
    exact .request fun _ => .bind (m := 2) (n := 1) (within_announce t rfl) fun _ =>
      .request fun _ => .done _

theorem within_reopen (before after : String) : (reopen before after).Within 3 := by
  refine .request fun updated => ?_
  cases updated with
  | none => exact .load fun t => .fail _
  | some t => exact .request fun _ => .request fun _ => .done _

/-- A change of status takes six turns at most. -/
theorem within_setStatus (actor : AccessContext) (id : String) (status : Json) :
    (setStatus actor id status).Within 6 := by
  refine .require (.load fun t => .require (.require ?_))
  split
  · exact within_finish actor id t.status
  · exact .require ((within_reopen t.status _).mono (by omega))

theorem within_settle (decision : Decision) (actor : AccessContext) (id : String)
    (comment : Option String) : (settle decision actor id comment).Within 6 := by
  refine .request fun decided => ?_
  cases decided with
  | none => exact .load fun t => .require (.fail _)
  | some t =>
    exact .request fun _ => .bind (m := 3) (n := 1) (within_announce t rfl) fun _ =>
      .request fun _ => .done _

/-- A decision takes eight turns at most. -/
theorem within_conclude (decision : Decision) (actor : AccessContext) (id : String)
    (comment : Json) : (conclude decision actor id comment).Within 8 := by
  refine .lift fun comment => .load fun t => .require (.require (.require ?_))
  refine .bind (n := 6) (within_executionOf t) fun execution => .lift fun needed => .require ?_
  exact within_settle decision actor id comment

/-- Eight requests are enough for every operation. -/
theorem Order.within (o : Order) : o.dialogue.Within 8 := by
  unfold Order.dialogue
  cases o.operation with
  | claim => exact (within_claim _).mono (by omega)
  | mutate given => exact (within_mutate _ given).mono (by omega)
  | setStatus status => exact (within_setStatus _ _ status).mono (by omega)
  | conclude decision comment => exact within_conclude decision _ _ comment

end Casework.Task
