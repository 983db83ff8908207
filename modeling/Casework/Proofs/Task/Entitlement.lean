/-
  Casework.Proofs.Task.Entitlement

  Who may write to a task when the write is made. An operation checks its actor against the task as
  it reads it, and writes later; the conditions of the writes do not repeat the check. What can come
  between is said exactly: only an edit that takes effect takes a task away from an actor who was
  entitled to it, since claims apply to tasks that nobody has.
-/
import Casework.Proofs.Task.Winner

namespace Casework

namespace Task

open Lifecycle Dialogue

variable {α β : Type}

-- ============================================================================
-- Entitlement
-- ============================================================================

/-- Whether the actor of an operation is entitled to a task: to claim it, by the role that it is
assigned to, and to all else, as whom it is assigned to or as an administrator. -/
def Order.entitled (o : Order) (t : Task) : Bool :=
  match o.operation with
  | .claim => o.actor.holdsRole t.role
  | _ => o.actor.canMutate t.assignment

namespace Order

variable {o : Order} {t t' : Task}

/-- To claim takes the role of the task. -/
theorem entitled_claim (h : o.operation = .claim) : o.entitled t = o.actor.holdsRole t.role := by
  rw [entitled, h]

/-- Every other operation takes the right to change the task. -/
theorem entitled_of_ne_claim (h : o.operation ≠ .claim) :
    o.entitled t = o.actor.canMutate t.assignment := by
  rw [entitled]
  split
  · contradiction
  · rfl

/-- Only the assignment of a task counts. -/
theorem entitled_congr (h : t'.assignment = t.assignment) : o.entitled t' = o.entitled t := by
  have hrole : t'.role = t.role := congrArg Assignment.role h
  rw [entitled, entitled, h, hrole]

/-- No conditional write takes a task away from an actor who is entitled to it. -/
theorem entitled_apply {w : Write} (happlies : w.applies t) (h : o.entitled t) (moment : Moment) :
    o.entitled (w.apply moment t) := by
  cases w with
  | claim user =>
    have hfree : t.assignee = none := Option.isNone_iff_eq_none.1 happlies
    by_cases hoperation : o.operation = .claim
    · rw [entitled_claim hoperation] at h ⊢
      exact h
    · rw [entitled_of_ne_claim hoperation] at h ⊢
      -- Nobody has the task yet, so that only administrators were entitled to it.
      have hadmin : o.actor.admin = true := by
        simpa [AccessContext.canMutate, assignment, hfree] using h
      rw [AccessContext.canMutate, hadmin, Bool.true_or]
  | complete => exact (entitled_congr rfl).trans h
  | decide outcome comment => exact (entitled_congr rfl).trans h
  | setOpen status => exact (entitled_congr rfl).trans h

/-- What an operation may ask for that has seen a task: writes only if its actor is entitled to the
task, and new values of fields only if it is an edit, besides. -/
def Permits (o : Order) (seen : Option Task) : Request → Prop
  | .write _ => ∃ t, seen = some t ∧ o.entitled t
  | .update given => o.operation = .mutate given ∧ ∃ t, seen = some t ∧ o.entitled t
  | _ => True

end Order

-- ============================================================================
-- Checks come first
-- ============================================================================

/-- Whatever it is answered, a dialogue asks for certain requests only. -/
def Dialogue.Only (p : Request → Prop) : Dialogue α → Prop
  | .done _ | .fail _ => True
  | .ask r next => p r ∧ ∀ answer, (next answer).Only p

namespace Dialogue.Only

variable {p : Request → Prop}

/-- A dialogue that goes on with another asks for what both ask for. -/
theorem bind {x : Dialogue α} {f : α → Dialogue β} (h : x.Only p) (hf : ∀ a, (f a).Only p) :
    (x >>= f).Only p := by
  induction x with
  | done a => exact hf a
  | fail e => trivial
  | ask r next ih => exact ⟨h.1, fun answer => ih answer (h.2 answer)⟩

theorem request {r : Request} {next : r.Answer → Dialogue α} (h : p r)
    (hnext : ∀ a, (next a).Only p) : (Dialogue.request r >>= next).Only p := ⟨h, hnext⟩

theorem require {c : Bool} {f : Failure} {next : Unit → Dialogue α}
    (h : c = true → (next ()).Only p) : (Dialogue.require c f >>= next).Only p := by
  cases c with
  | true => exact h rfl
  | false => trivial

theorem lift {x : Except Failure β} {next : β → Dialogue α} (h : ∀ b, (next b).Only p) :
    (Dialogue.lift x >>= next).Only p := by
  cases x with
  | ok b => exact h b
  | error f => trivial

theorem load {next : Task → Dialogue α} (h : p .read) (hnext : ∀ t, (next t).Only p) :
    (Lifecycle.load >>= next).Only p := by
  refine ⟨h, fun answer => ?_⟩
  cases answer with
  | none => trivial
  | some t => exact hnext t

end Dialogue.Only

/-- Requests that leave tasks as they are. -/
def Request.Spares : Request → Prop
  | .write _ | .update _ => False
  | _ => True

/-- Requests by which others are told of a task: to look for its execution, and to send messages. -/
def Request.Announces : Request → Prop
  | .execution _ | .signal _ _ => True
  | _ => False

/-- What announces a change spares the rows. -/
theorem Request.Announces.spares {r : Request} (h : r.Announces) : r.Spares := by
  cases r with
  | write w => exact h
  | update given => exact h
  | _ => trivial

section Announcing

variable {p : Request → Prop} (hp : ∀ r : Request, r.Announces → p r)

include hp

theorem only_lookUp (t : Task) : (lookUp t).Only p := by
  unfold lookUp
  split
  · trivial
  · trivial
  · exact ⟨hp _ trivial, fun _ => trivial⟩

theorem only_executionOf (t : Task) : (executionOf t).Only p := by
  refine .bind (only_lookUp hp t) fun found => ?_
  cases found <;> trivial

theorem only_workflowOf (t : Task) : (workflowOf t).Only p := by
  refine .bind (only_lookUp hp t) fun found => ?_
  split <;> trivial

theorem only_send (workflow : String) (messages : List Signal) :
    (send workflow messages).Only p := by
  induction messages with
  | nil => trivial
  | cons m rest ih => exact .request (hp _ trivial) fun _ => .bind ih fun _ => trivial

theorem only_announce (t : Task) (messages : List Signal) : (announce t messages).Only p := by
  refine .bind (only_workflowOf hp t) fun workflow => ?_
  cases workflow with
  | none => trivial
  | some workflow => exact only_send hp workflow messages

end Announcing

section Parts

variable {p : Request → Prop} (hp : ∀ r : Request, r.Spares → p r)

include hp

theorem only_finish {actor : AccessContext} {id before : String} (h : p (.write .complete)) :
    (finish actor id before).Only p := by
  refine .request h fun completed => ?_
  cases completed with
  | none => exact .load (hp _ trivial) fun _ => trivial
  | some t =>
    exact .request (hp _ trivial) fun _ =>
      .bind (only_announce (fun r hr => hp r hr.spares) t _) fun _ =>
        .request (hp _ trivial) fun _ => trivial

theorem only_reopen {before after : String} (h : p (.write (.setOpen after))) :
    (reopen before after).Only p := by
  refine .request h fun updated => ?_
  cases updated with
  | none => exact .load (hp _ trivial) fun _ => trivial
  | some t => exact .request (hp _ trivial) fun _ => .request (hp _ trivial) fun _ => trivial

theorem only_settle {decision : Decision} {actor : AccessContext} {id : String}
    {comment : Option String} (h : p (.write (.decide (some decision.outcome) comment))) :
    (settle decision actor id comment).Only p := by
  refine .request h fun decided => ?_
  cases decided with
  | none => exact .load (hp _ trivial) fun _ => .require fun _ => trivial
  | some t =>
    exact .request (hp _ trivial) fun _ =>
      .bind (only_announce (fun r hr => hp r hr.spares) t _) fun _ =>
        .request (hp _ trivial) fun _ => trivial

end Parts

/-- An operation looks at its task, and asks only for what it may then. -/
def Order.Guards (o : Order) : Dialogue Transition → Prop
  | .done _ | .fail _ => True
  | .ask .read next => ∀ seen, (next seen).Only (o.Permits seen)
  | .ask _ _ => False

section Guards

variable {o : Order} {seen : Option Task}

/-- An operation looks at its task first. -/
theorem Order.Guards.eq_read {r : Request} {next : r.Answer → Dialogue Transition}
    (h : o.Guards (.ask r next)) : r = .read := by
  cases r with
  | read => rfl
  | _ => cases h

/-- What spares the rows is permitted to all. -/
theorem Order.permits_of_spares (r : Request) (h : r.Spares) : o.Permits seen r := by
  cases r with
  | write w => exact h.elim
  | update given => exact h.elim
  | _ => trivial

/-- An operation that begins by looking at its task is guarded if the rest of it is. -/
theorem guards_load {next : Task → Dialogue Transition}
    (h : ∀ t, (next t).Only (o.Permits (some t))) : o.Guards (load >>= next) := by
  intro seen
  cases seen with
  | none => trivial
  | some t => exact h t

theorem guards_require {c : Bool} {f : Failure} {next : Unit → Dialogue Transition}
    (h : o.Guards (next ())) : o.Guards (Dialogue.require c f >>= next) := by
  cases c with
  | true => exact h
  | false => trivial

/-- A claim writes only if the actor holds the role of the task that it has seen. -/
theorem guards_claim (hoperation : o.operation = .claim) : o.Guards (claim o.actor) := by
  refine guards_load fun t => .require fun _ => .require fun _ => .require fun hrole => ?_
  have hentitled : o.entitled t := by
    rw [Order.entitled_claim hoperation]
    exact hrole
  refine .request ⟨t, rfl, hentitled⟩ fun claimed => ?_
  cases claimed with
  | none => exact .request trivial fun _ => .require fun _ => .request trivial fun _ => trivial
  | some t' => exact .request trivial fun _ => .request trivial fun _ => trivial

/-- An edit writes only if the actor may change the task that it has seen. -/
theorem guards_mutate {given : Fields} (hoperation : o.operation = .mutate given) :
    o.Guards (mutate o.actor given) := by
  have hnoclaim : o.operation ≠ .claim := by simp [hoperation]
  unfold mutate
  extract_lets edit
  -- Changes that are not refused are made behind the check of the task that was read.
  have hedit : ∀ u, o.Guards (edit u) := by
    intro _
    refine guards_load fun t => .require fun hmutate => ?_
    have hentitled : o.entitled t := by
      rw [Order.entitled_of_ne_claim hnoclaim]
      exact hmutate
    refine .request ⟨hoperation, t, rfl, hentitled⟩ fun updated => ?_
    cases updated with
    | none => trivial
    | some t' =>
      refine .request trivial fun _ => ?_
      extract_lets record
      have hrecord : ∀ u, (record u).Only (o.Permits (some t)) :=
        fun _ => .request trivial fun _ => trivial
      split
      · exact .request trivial hrecord
      · exact hrecord ()
  split
  · trivial
  · exact hedit ()

theorem guards_setStatus {status : Json} (hoperation : o.operation = .setStatus status) :
    o.Guards (setStatus o.actor o.task status) := by
  have hnoclaim : o.operation ≠ .claim := by simp [hoperation]
  refine guards_require (guards_load fun t => .require fun hmutate => .require fun _ => ?_)
  have hentitled : o.entitled t := by
    rw [Order.entitled_of_ne_claim hnoclaim]
    exact hmutate
  split
  · exact only_finish Order.permits_of_spares ⟨t, rfl, hentitled⟩
  · exact .require fun _ => only_reopen Order.permits_of_spares ⟨t, rfl, hentitled⟩

/-- A decision writes only if the actor may change the task that it has seen. -/
theorem guards_conclude {decision : Decision} {given : Json}
    (hoperation : o.operation = .conclude decision given) :
    o.Guards (conclude decision o.actor o.task given) := by
  have hnoclaim : o.operation ≠ .claim := by simp [hoperation]
  rw [conclude]
  cases commentOf given with
  | error f => trivial
  | ok comment =>
    refine guards_load fun t => .require fun hmutate => .require fun _ => .require fun _ => ?_
    have hentitled : o.entitled t := by
      rw [Order.entitled_of_ne_claim hnoclaim]
      exact hmutate
    refine .bind (only_executionOf (fun r hr => Order.permits_of_spares r hr.spares) t) fun _ => ?_
    exact .lift fun _ => .require fun _ => only_settle Order.permits_of_spares ⟨t, rfl, hentitled⟩

/-- Every operation checks its actor against the task that it looks at first, before it writes. -/
theorem Order.guards (o : Order) : o.Guards o.dialogue := by
  unfold Order.dialogue
  cases hoperation : o.operation with
  | claim => exact guards_claim hoperation
  | mutate given => exact guards_mutate hoperation
  | setStatus status => exact guards_setStatus hoperation
  | conclude decision given => exact guards_conclude hoperation

end Guards

-- ============================================================================
-- One request
-- ============================================================================

/-- A task that is there stays as it is when new ones are created. -/
theorem task?_of_arriving {s s' : Session} (h : arriving.rel s.working s'.working)
    {id org : String} {t : Task} (ht : s.task? id org = some t) : s'.task? id org = some t := by
  obtain ⟨-, ⟨new, hnew, -⟩, -⟩ := h
  rw [Session.task?] at ht ⊢
  rw [hnew, List.find?_append, ht, Option.some_or]

/-- After the answer to a request of another operation the actor of an operation is entitled to the
task, unless the request was an edit that left the task to others. -/
def Order.Remains (o other : Order) (s : Session) (r : Request) : Prop :=
  ∃ t, o.task? (other.answer r s).2 = some t ∧
    (o.entitled t ∨ ∃ given u, (⟨r, (other.answer r s).1⟩ : Exchange) =
      ⟨.update given, .ok (some u)⟩ ∧ other.isOn o.task o.actor.org ∧ o.entitled u = false)

section Remains

variable {o other : Order} {s : Session} {r : Request} {t : Task}

/-- Where the rows stay the same, an actor stays entitled. -/
theorem Order.remains_of_same (hsame : s.Same (other.answer r s).2) (ht : o.task? s = some t)
    (h : o.entitled t) : o.Remains other s r := by
  refine ⟨t, ?_, .inl h⟩
  rw [Order.task?, hsame.task?]
  exact ht

/-- Whether two operations are on the same task or not, what is written for the one is found by the
other. -/
theorem Order.task?_alter {f : Task → Task}
    (hf : ∀ u : Task, Record.isOf other.task other.actor.org u →
      Record.isOf other.task other.actor.org (f u))
    (ht : o.task? s = some t) {u : Task} (hu : other.task? s = some u) :
    o.task? (s.alter other.task other.actor.org f) = some t ∧ ¬ other.isOn o.task o.actor.org ∨
      o.task? (s.alter other.task other.actor.org f) = some (f t) ∧ u = t ∧
        other.isOn o.task o.actor.org := by
  rw [Order.task?, Session.task?_alter hf]
  rw [Order.task?] at ht hu
  by_cases hon : o.task = other.task ∧ o.actor.org = other.actor.org
  · rw [if_pos hon, hu]
    rw [hon.1, hon.2, hu] at ht
    obtain rfl : u = t := Option.some.inj ht
    exact .inr ⟨rfl, rfl, isOn_iff.2 hon⟩
  · rw [if_neg hon]
    exact .inl ⟨ht, fun h => hon (isOn_iff.1 h)⟩

/-- A write leaves an entitled actor entitled. -/
theorem Order.remains_write (hs : s.Settled) (w : Write) (ht : o.task? s = some t)
    (h : o.entitled t) : o.Remains other s (.write w) := by
  rcases other.answer_write_cases hs w with heq | ⟨u, hu, happlies, heq⟩
  · exact remains_of_same (heq ▸ .refl hs) ht h
  · rw [Order.Remains, heq]
    rcases task?_alter (fun v hv => w.isOf_apply s.now.bare hv) ht hu with
      ⟨hfound, -⟩ | ⟨hfound, rfl, -⟩
    · exact ⟨_, hfound, .inl h⟩
    · exact ⟨_, hfound, .inl (entitled_apply happlies h _)⟩

/-- An edit may change who is entitled, and counts as displacing then. -/
theorem Order.remains_update (hs : s.Settled) (given : Fields) (ht : o.task? s = some t)
    (h : o.entitled t) : o.Remains other s (.update given) := by
  rcases other.answer_update_cases hs given with heq | ⟨u, c, hu, heq⟩
  · exact remains_of_same (heq.symm ▸ .refl hs) ht h
  · have hid : Record.isOf other.task other.actor.org u := List.find?_some hu
    rw [Order.Remains, heq]
    rcases task?_alter (f := fun _ => (c.apply s.now u).bare) (fun _ _ => hid) ht hu with
      ⟨hfound, -⟩ | ⟨hfound, rfl, hon⟩
    · exact ⟨_, hfound, .inl h⟩
    · refine ⟨_, hfound, ?_⟩
      by_cases hentitled : o.entitled (c.apply s.now u)
      · exact .inl ((entitled_congr rfl).trans hentitled)
      · exact .inr ⟨given, _, rfl, hon, Bool.not_eq_true _ ▸ hentitled⟩

/-- A request of anybody leaves a task with an actor who is entitled to it, unless it is an edit of
the task. -/
theorem Order.remains (other : Order) (hs : s.Settled) (r : Request) (ht : o.task? s = some t)
    (h : o.entitled t) : o.Remains other s r := by
  cases r with
  | write w => exact remains_write hs w ht h
  | update given => exact remains_update hs given ht h
  | _ => exact remains_of_same (other.same_answer hs (by simp) (by simp)) ht h

end Remains

-- ============================================================================
-- One party
-- ============================================================================

/-- An operation has not begun yet, or goes on as it may after what it has seen. -/
def Party.Guarded (p : Party) (log : Log) : Prop :=
  log = [] ∧ p.order.Guards p.rest ∨ log ≠ [] ∧ p.rest.Only (p.order.Permits log.seen?)

/-- A party that is guarded stays so after its turn. -/
theorem Party.Guarded.turn {o : Order} {r : Request} {next : r.Answer → Dialogue Transition}
    {log : Log} (h : Guarded ⟨o, .ask r next⟩ log) (answer : Except Failure r.Answer) :
    Guarded ⟨o, .resume next answer⟩ (log ++ [⟨r, answer⟩]) := by
  refine .inr ⟨by simp, ?_⟩
  cases answer with
  | error f => trivial
  | ok a =>
    rcases h with ⟨rfl, hguards⟩ | ⟨hlog, honly⟩
    · obtain rfl := Order.Guards.eq_read hguards
      exact hguards a
    · rw [Log.seen?_append hlog]
      exact honly.2 a

/-- New values of fields are asked for by edits only. -/
theorem Party.Guarded.operation_eq {o : Order} {given : Fields} {log : Log}
    {next : Option Task → Dialogue Transition} (h : Guarded ⟨o, .ask (.update given) next⟩ log) :
    o.operation = .mutate given := by
  rcases h with ⟨-, hguards⟩ | ⟨-, honly⟩
  · cases Order.Guards.eq_read hguards
  · exact honly.1.1

-- ============================================================================
-- All parties
-- ============================================================================

namespace Office

variable {f : Office} {s : Session}

/-- Since an operation looked at its task, an edit of the task took effect that left it as one that
the actor of the operation is not entitled to. -/
def Displaced (f : Office) (i : Nat) (o : Order) : Prop :=
  ∃ before j given t after editor,
    f.history = before ++ (j, ⟨.update given, .ok (some t)⟩) :: after ∧
    (∃ entry ∈ before, entry.1 = i) ∧
    f.order? j = some editor ∧ editor.isOn o.task o.actor.org ∧ editor.operation = .mutate given ∧
    o.entitled t = false

/-- A turn leaves the operations what they are. -/
theorem order?_turn (f : Office) (index i : Nat) : (f.turn index).order? i = f.order? i := by
  obtain heq | ⟨o, r, next, hparty⟩ := f.turn_eq_or index
  · rw [heq]
  · rw [order?, order?, parties_turn hparty]
    by_cases hi : index = i
    · subst hi
      rw [List.getElem?_set_self (List.getElem?_eq_some_iff.1 hparty).1, hparty]
      rfl
    · rw [List.getElem?_set_ne hi]

theorem order?_arrive {i : Nat} (hi : i < f.parties.length) (o : Order) :
    (f.move (.arrive o)).order? i = f.order? i := by
  show ((f.parties ++ [_])[i]?).map _ = _
  rw [List.getElem?_append_left hi]
  rfl

/-- The operation of a party stays the same. -/
theorem order?_move {i : Nat} {o : Order} (h : f.order? i = some o) (m : Move) :
    (f.move m).order? i = some o := by
  cases m with
  | arrive other =>
    obtain ⟨p, hp, -⟩ := Option.map_eq_some_iff.1 h
    rw [order?_arrive (List.getElem?_eq_some_iff.1 hp).1]
    exact h
  | turn index => exact (f.order?_turn index i).trans h
  | tick now => exact h
  | disturb trouble => exact h
  | create params => exact h

/-- What has happened stays at the beginning of the history. -/
theorem history_move (f : Office) (m : Move) : f.history <+: (f.move m).history := by
  cases m with
  | turn index =>
    show f.history <+: (f.turn index).history
    obtain heq | ⟨o, r, next, hparty⟩ := f.turn_eq_or index
    · exact heq.symm ▸ List.prefix_refl f.history
    · rw [history_turn hparty]
      exact List.prefix_append _ _
  | _ => exact List.prefix_refl _

/-- Who has a log has an entry in the history. -/
theorem exists_entry {i : Nat} (h : f.log i ≠ []) : ∃ entry ∈ f.history, entry.1 = i := by
  obtain ⟨e, he⟩ := List.exists_mem_of_ne_nil _ h
  obtain ⟨entry, hentry, hsome⟩ := List.mem_filterMap.1 he
  refine ⟨entry, hentry, ?_⟩
  by_contra hother
  rw [if_neg hother] at hsome
  cases hsome

/-- Who was displaced stays so. -/
theorem Displaced.move {i : Nat} {o : Order} (h : f.Displaced i o) (m : Move) :
    (f.move m).Displaced i o := by
  obtain ⟨before, j, given, t, after, editor, hhistory, hseen, hj, hedit⟩ := h
  obtain ⟨more, hmore⟩ := f.history_move m
  refine ⟨before, j, given, t, after ++ more, editor, ?_, hseen, order?_move hj m, hedit⟩
  rw [← hmore, hhistory, List.append_assoc, List.cons_append]

/-- When somebody has a request answered, an actor who was entitled to a task still is, unless the
request was an edit of the task. -/
theorem entitled_turn (hproper : f.Proper s) {index : Nat} {o : Order} {r : Request}
    {next : r.Answer → Dialogue Transition} (hparty : f.parties[index]? = some ⟨o, .ask r next⟩)
    (hguarded : Party.Guarded ⟨o, .ask r next⟩ (f.log index)) {i : Nat} {other : Order} {t : Task}
    (hbegun : f.log i ≠ []) (ht : other.task? f.session = some t) (h : other.entitled t) :
    ∃ t', other.task? (f.turn index).session = some t' ∧
      (other.entitled t' ∨ (f.turn index).Displaced i other) := by
  obtain ⟨t', ht', hnow⟩ := Order.remains o hproper.settled r ht h
  rw [session_turn hparty]
  refine ⟨t', ht', hnow.imp_right ?_⟩
  rintro ⟨given, u, hexchange, hon, hlost⟩
  obtain rfl : r = .update given := congrArg Exchange.request hexchange
  refine ⟨f.history, index, given, u, [], o, ?_, exists_entry hbegun, ?_, hon,
    hguarded.operation_eq, hlost⟩
  · rw [history_turn hparty, hexchange]
  · rw [order?_turn, order?, hparty]
    rfl

/-- Everybody goes on as they may after what they have seen. Who was entitled to the task then is
still entitled to it, unless it was edited since. -/
structure Watched (f : Office) : Prop where
  guarded : ∀ (i : Nat) (p : Party), f.parties[i]? = some p → p.Guarded (f.log i)
  entitled : ∀ (i : Nat) (o : Order) (t : Task), f.order? i = some o → (f.log i).seen? = some t →
    o.entitled t →
    ∃ t', o.task? f.session = some t' ∧ (o.entitled t' ∨ f.Displaced i o)

namespace Watched

/-- At the beginning nobody has looked at a task. -/
theorem opened (s : Session) : (Office.opened s).Watched :=
  ⟨fun _ _ h => (by cases h), fun _ _ _ h => (by cases h)⟩

/-- What happens without any of the operations, and leaves the tasks that are there. -/
theorem step (h : f.Watched) {m : Move} (hparties : (f.move m).parties = f.parties)
    (hlog : (f.move m).history = f.history)
    (hkeeps : ∀ id org t, f.session.task? id org = some t →
      (f.move m).session.task? id org = some t) : (f.move m).Watched := by
  have hlogs : ∀ i, (f.move m).log i = f.log i := fun i => by rw [log, log, hlog]
  refine ⟨fun i p hp => ?_, fun i o t ho hseen hentitled => ?_⟩
  · rw [hparties] at hp
    rw [hlogs]
    exact h.guarded i p hp
  · rw [order?, hparties] at ho
    rw [hlogs] at hseen
    obtain ⟨t', ht', hnow⟩ := h.entitled i o t ho hseen hentitled
    exact ⟨t', hkeeps _ _ _ ht', hnow.imp_right fun hdisplaced => hdisplaced.move m⟩

/-- Another operation arrives, which has still to look at its task. -/
theorem arrive (h : f.Watched) (hproper : f.Proper s) (o : Order) :
    (f.move (.arrive o)).Watched := by
  have hparties : (f.move (.arrive o)).parties = f.parties ++ [⟨o, o.dialogue⟩] := rfl
  have hnew : f.log f.parties.length = [] := log_eq_nil hproper.known
  refine ⟨fun i p hp => ?_, fun i other t ho hseen hentitled => ?_⟩
  · rw [hparties] at hp
    show p.Guarded (f.log i)
    rcases Nat.lt_or_ge i f.parties.length with hlt | hge
    · rw [List.getElem?_append_left hlt] at hp
      exact h.guarded i p hp
    · have hlast : i = f.parties.length := by
        have hbound := (List.getElem?_eq_some_iff.1 hp).1
        rw [List.length_append, List.length_singleton] at hbound
        omega
      subst hlast
      rw [List.getElem?_concat_length] at hp
      cases hp
      exact .inl ⟨hnew, o.guards⟩
  -- The newcomer has an empty log, so whoever has seen the task was there before.
  · have hseen : (f.log i).seen? = some t := hseen
    have hlt : i < f.parties.length := by
      by_contra hge
      have hnone : f.log i = [] := log_eq_nil fun entry hentry => by
        have hknown := hproper.known entry hentry
        omega
      rw [hnone] at hseen
      cases hseen
    rw [order?_arrive hlt] at ho
    obtain ⟨t', ht', hnow⟩ := h.entitled i other t ho hseen hentitled
    exact ⟨t', ht', hnow.imp_right fun hdisplaced => hdisplaced.move _⟩

/-- Who was entitled to what they had seen before a turn is entitled to it after the turn, or edits
have taken the task from them. -/
theorem kept_turn (h : f.Watched) (hproper : f.Proper s) {index : Nat} {o : Order} {r : Request}
    {next : r.Answer → Dialogue Transition} (hparty : f.parties[index]? = some ⟨o, .ask r next⟩)
    {i : Nat} {other : Order} {t : Task} (ho : f.order? i = some other)
    (hseen : (f.log i).seen? = some t) (hentitled : other.entitled t) :
    ∃ t', other.task? (f.turn index).session = some t' ∧
      (other.entitled t' ∨ (f.turn index).Displaced i other) := by
  obtain ⟨t₀, ht₀, hnow⟩ := h.entitled i other t ho hseen hentitled
  rcases hnow with hnow | hdisplaced
  · exact entitled_turn hproper hparty (h.guarded index _ hparty)
      (Log.ne_nil_of_seen? hseen) ht₀ hnow
  · obtain ⟨t₁, ht₁, -⟩ := Order.task?_later (hproper.later_move (.turn index)) ht₀
    exact ⟨t₁, ht₁, .inr (hdisplaced.move (.turn index))⟩

/-- After a turn every party is still guarded, and entitled unless it was displaced. -/
theorem turn (h : f.Watched) (hproper : f.Proper s) (index : Nat) : (f.turn index).Watched := by
  obtain heq | ⟨o, r, next, hparty⟩ := f.turn_eq_or index
  · rw [heq]
    exact h
  have hlt := (List.getElem?_eq_some_iff.1 hparty).1
  have hguarded := h.guarded index _ hparty
  refine ⟨fun i p hp => ?_, fun i other t ho hseen hentitled => ?_⟩
  -- Whose turn it was asks for what it may; the others are where they were.
  · rw [parties_turn hparty] at hp
    rw [log_turn hparty]
    by_cases hi : index = i
    · subst hi
      rw [List.getElem?_set_self hlt] at hp
      cases hp
      rw [if_pos rfl]
      exact hguarded.turn _
    · rw [List.getElem?_set_ne hi] at hp
      rw [if_neg hi]
      exact h.guarded i p hp
  -- What the turn does to the row keeps the others entitled, or displaces them.
  · rw [order?_turn] at ho
    rw [log_turn hparty] at hseen
    by_cases hi : index = i
    · subst hi
      obtain rfl : o = other := by
        have hsame := ho
        rw [order?, hparty] at hsame
        exact Option.some.inj hsame
      rw [if_pos rfl] at hseen
      rcases hguarded with ⟨hnil, hguards⟩ | ⟨hlog, -⟩
      · -- The task is looked at for the first time.
        obtain rfl : r = .read := Order.Guards.eq_read hguards
        rw [hnil, o.answer_read hproper.settled] at hseen
        refine ⟨t, ?_, .inl hentitled⟩
        rw [session_turn hparty, o.answer_read hproper.settled]
        exact hseen
      · rw [Log.seen?_append hlog] at hseen
        exact h.kept_turn hproper hparty ho hseen hentitled
    · rw [if_neg hi] at hseen
      exact h.kept_turn hproper hparty ho hseen hentitled

/-- After any move every party is still guarded, and entitled unless it was displaced. -/
theorem move (h : f.Watched) (hproper : f.Proper s) (m : Move) : (f.move m).Watched := by
  cases m with
  | arrive o => exact h.arrive hproper o
  | turn index => exact h.turn hproper index
  | tick now => exact h.step rfl rfl fun _ _ _ ht => ht
  | disturb trouble => exact h.step rfl rfl fun _ _ _ ht => ht
  | create params =>
    have hcreated := (moves_activity params).transact hproper.settled
    exact h.step rfl rfl fun _ _ _ ht => task?_of_arriving hcreated.2.1 ht

end Watched

-- ============================================================================
-- Writes
-- ============================================================================

/-- Whoever writes to a task was entitled to it as they had seen it. At the moment of the write they
are entitled to it as it then is, unless an edit that took effect since has left it to others. -/
theorem entitled_of_written (s : Session) (moves : List Move) {i : Nat} {o : Order} {w : Write}
    {next : Option Task → Dialogue Transition} {written : Task}
    (hparty : ((opened s).play moves).parties[i]? = some ⟨o, .ask (.write w) next⟩)
    (hwritten : (o.answer (.write w) ((opened s).play moves).session).1 = .ok (some written)) :
    ∃ seen t, (((opened s).play moves).log i).seen? = some seen ∧ o.entitled seen ∧
      o.task? ((opened s).play moves).session = some t ∧ w.applies t ∧
      (o.entitled t ∨ ((opened s).play moves).Displaced i o) := by
  have hproper := (Proper.opened s).play moves
  have hwatched : ((opened s).play moves).Watched :=
    (Proper.opened s).invariant (P := Watched) (fun _ m hproper h => h.move hproper m)
      (Watched.opened s) moves
  -- A party that asks for a write has looked at its task, and was entitled then.
  obtain ⟨seen, hseen, hentitled⟩ : ∃ seen,
      (((opened s).play moves).log i).seen? = some seen ∧ o.entitled seen := by
    rcases hwatched.guarded i _ hparty with ⟨-, hguards⟩ | ⟨-, honly⟩
    · cases Order.Guards.eq_read hguards
    · exact honly.1
  have horder : ((opened s).play moves).order? i = some o := by
    rw [order?, hparty]
    rfl
  obtain ⟨t, ht, hnow⟩ := hwatched.entitled i o seen horder hseen hentitled
  -- The write has been made, so it applied.
  refine ⟨seen, t, hseen, hentitled, ht, ?_, hnow⟩
  rw [o.answer_write hproper.settled, ht] at hwritten
  by_contra hnot
  dsimp only at hwritten
  rw [if_neg hnot] at hwritten
  cases hwritten

/-- A run creates a task for a role or for a user. -/
def creatingFor (assignment : List (String × Json)) : Move :=
  .create ⟨[("org_id", .text "org"), ("config", .obj [("assignTo", .obj assignment)])]⟩

/-- Ann, who holds a role, claims the first task. -/
def claiming : Order where
  task := "task-1"
  actor := .build "ann" "org" none false [some "support"]
  reach := {}
  operation := .claim

/-- Bob finishes the second task. -/
def finishing : Order where
  task := "task-2"
  actor := .build "bob" "org" none false []
  reach := {}
  operation := .setStatus (.text done)

/-- An administrator edits a task. -/
def editing (task : String) (given : List (String × Json)) : Order :=
  { deciding "root" task .approve with operation := .mutate ⟨given⟩ }

/-- Ann and Bob look at their tasks. Before they write, an administrator gives the one to another
role, and the other to another user. -/
def handedOn : List Move := [
  creatingFor [("type", .text "role"), ("role", .text "support")],
  creatingFor [("type", .text "user"), ("userId", .text "bob")],
  .arrive claiming, .arrive finishing, .turn 0, .turn 1,
  .arrive (editing "task-1" [("assigned_role", .text "finance")]),
  .arrive (editing "task-2" [("assigned_to", .text "cat")]),
  .turn 2, .turn 2, .turn 3, .turn 3]

/-- Ann is about to claim her task, and Bob to finish his; both writes are going to apply. -/
theorem exists_writing_handedOn :
    (∃ next written, ((opened emptyStore).play handedOn).parties[0]? =
        some ⟨claiming, .ask (.write (.claim (some "ann"))) next⟩ ∧
      (claiming.answer (.write (.claim (some "ann")))
        ((opened emptyStore).play handedOn).session).1 =
        .ok (some written)) ∧
    ∃ next written, ((opened emptyStore).play handedOn).parties[1]? =
        some ⟨finishing, .ask (.write .complete) next⟩ ∧
      (finishing.answer (.write .complete) ((opened emptyStore).play handedOn).session).1 =
        .ok (some written) := by
  refine ⟨⟨?_, ?_, ?claiming, ?claimed⟩, ?_, ?_, ?finishing, ?finished⟩
  -- The names of the fields that are edited are sorted, which is no structural recursion.
  case claiming => with_unfolding_all exact rfl
  case claimed => with_unfolding_all exact rfl
  case finishing => with_unfolding_all exact rfl
  case finished => with_unfolding_all exact rfl

/-- The tasks of both are not theirs any more. -/
theorem entitled_eq_false_handedOn :
    (claiming.task? ((opened emptyStore).play handedOn).session).map claiming.entitled
      = some false ∧
    (finishing.task? ((opened emptyStore).play handedOn).session).map finishing.entitled =
      some false := by
  decide +kernel

theorem entitled_handedOn :
    ∃ next written,
      ((opened emptyStore).play handedOn).parties[1]? =
        some ⟨finishing, .ask (.write .complete) next⟩ ∧
      (finishing.answer (.write .complete) ((opened emptyStore).play handedOn).session).1 =
        .ok (some written) ∧
      ((opened emptyStore).play handedOn).Displaced 1 finishing := by
  obtain ⟨-, next, written, hparty, hwritten⟩ := exists_writing_handedOn
  obtain ⟨-, hlost⟩ := entitled_eq_false_handedOn
  obtain ⟨seen, t, -, -, ht, -, hnow⟩ := entitled_of_written emptyStore handedOn hparty hwritten
  refine ⟨next, written, hparty, hwritten, hnow.resolve_left fun hentitled => ?_⟩
  rw [ht, Option.map_some, hentitled] at hlost
  cases hlost

/-- A task can be claimed by somebody without the role that it is assigned to, and finished by
somebody whom it is not assigned to. -/
theorem not_all_writers_entitled :
    (¬ ∀ (moves : List Move) (i : Nat) (o : Order) (w : Write) next (written t : Task),
      ((opened emptyStore).play moves).parties[i]? = some ⟨o, .ask (.write w) next⟩ →
      (o.answer (.write w) ((opened emptyStore).play moves).session).1 = .ok (some written) →
      o.task? ((opened emptyStore).play moves).session = some t →
      o.operation = .claim → o.actor.holdsRole t.role) ∧
    ¬ ∀ (moves : List Move) (i : Nat) (o : Order) (w : Write) next (written t : Task)
        (status : Json),
      ((opened emptyStore).play moves).parties[i]? = some ⟨o, .ask (.write w) next⟩ →
      (o.answer (.write w) ((opened emptyStore).play moves).session).1 = .ok (some written) →
      o.task? ((opened emptyStore).play moves).session = some t →
      o.operation = .setStatus status → o.actor.canMutate t.assignment := by
  obtain ⟨⟨_, _, hclaiming, hclaimed⟩, _, _, hfinishing, hfinished⟩ := exists_writing_handedOn
  obtain ⟨hrole, hassignee⟩ := entitled_eq_false_handedOn
  constructor
  · intro h
    obtain ⟨t, ht, hlost⟩ := Option.map_eq_some_iff.1 hrole
    have hentitled : claiming.entitled t := h _ _ _ _ _ _ _ hclaiming hclaimed ht rfl
    rw [hlost] at hentitled
    cases hentitled
  · intro h
    obtain ⟨t, ht, hlost⟩ := Option.map_eq_some_iff.1 hassignee
    have hentitled : finishing.entitled t := h _ _ _ _ _ _ _ _ hfinishing hfinished ht rfl
    rw [hlost] at hentitled
    cases hentitled

end Office
end Task
end Casework
