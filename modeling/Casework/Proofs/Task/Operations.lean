/-
  Casework.Proofs.Task.Operations

  Each operation among others. Claiming and editing neither finish a task nor send anything. A
  status is set and an approval is decided by one conditional write: where it applies, the messages
  follow, and where it does not, the task was done before.
-/
import Casework.Proofs.Task.Course

namespace Casework.Task

open Lifecycle Dialogue

variable {α β : Type} {o : Order} {log : Log} {s : Session} {t : Task}
  {post : Except Failure α → Log → Session → Prop} {sent : List (String × Signal)}

-- ============================================================================
-- What lasts
-- ============================================================================

/-- A request that neither marks a task as done nor sends a message. -/
def Request.Quiet : Request → Prop
  | .write .complete | .write (.decide _ _) | .signal _ _ => False
  | .write (.setOpen status) => status ≠ done
  | _ => True

theorem Request.Quiet.exchange {r : Request} (h : r.Quiet) (answer : Except Failure r.Answer) :
    (⟨r, answer⟩ : Exchange).Quiet := by
  cases r with
  | write w =>
    cases w with
    | claim user => exact ⟨rfl, rfl⟩
    | setOpen status => exact ⟨rfl, rfl⟩
    | complete => cases h
    | decide outcome comment => cases h
  | signal workflow m => cases h
  | _ => exact ⟨rfl, rfl⟩

theorem Request.Quiet.safe {r : Request} (h : r.Quiet) (o : Order) (s : Session) : o.Safe s r := by
  cases r with
  | write w =>
    cases w with
    | claim user => exact fun _ _ _ => trivial
    | setOpen status => exact fun _ _ _ => h
    | complete => cases h
    | decide outcome comment => cases h
  | _ => trivial

/-- What neither time nor quiet requests of an operation undo. -/
structure Lasting (o : Order) (known : Log → Session → Prop) : Prop where
  conducted : ∀ {log s}, known log s → o.Conducted log s
  later : ∀ {log s s'}, known log s → s.Later s' → known log s'
  quiet : ∀ {log s e}, known log s → e.Quiet → known (log ++ [e]) s

theorem lasting_idle (o : Order) : Lasting o fun log _ => log.Idle :=
  ⟨.inl, fun h _ => h, fun h he => h.append he⟩

theorem lasting_seen (o : Order) (t : Task) :
    Lasting o fun log _ => log.Idle ∧ log.seen? = some t :=
  ⟨fun h => .inl h.1, fun h _ => h, fun h he =>
    ⟨h.1.append he, (Log.seen?_append (Log.ne_nil_of_seen? h.2)).trans h.2⟩⟩

/-- A finished log stays finished, and what it has sent stays an initial part of the messages the
row calls for. -/
theorem lasting_won (o : Order) (sent : List (String × Signal)) :
    Lasting o fun log s => o.Won sent log s ∧ sent <+: o.messages s where
  conducted h := .inr ⟨sent, h⟩
  later h hlater := ⟨h.1.later hlater, by rw [h.1.messages_later hlater]; exact h.2⟩
  quiet h he := ⟨h.1.append_quiet he, h.2⟩

namespace Lasting

variable {known : Log → Session → Prop} (hlasting : Lasting o known) (h : known log s)

include hlasting h

/-- A quiet request may be asked for, and what lasts is still so afterwards. -/
theorem ask {r : Request} {next : r.Answer → Dialogue α} (hquiet : r.Quiet)
    (hnext : ∀ s', s.Later s' →
      known (log ++ [⟨r, (o.answer r s').1⟩]) (o.answer r s').2 →
      s.Later (o.answer r s').2 →
      (Dialogue.resume next (o.answer r s').1).Holds o o.Conducted post
        (log ++ [⟨r, (o.answer r s').1⟩]) (o.answer r s').2) :
    (Dialogue.ask r next).Holds o o.Conducted post log s := by
  intro s' hs'
  have hafter := o.later_answer hs'.settled (hquiet.safe o s')
  have hknown := hlasting.quiet (hlasting.later (hlasting.later h hs') hafter)
    (hquiet.exchange (o.answer r s').1)
  refine ⟨hquiet.safe o s', hlasting.conducted hknown, ?_⟩
  have hrest := hnext s' hs' hknown (hs'.trans hafter)
  cases hanswer : (o.answer r s').1 with
  | ok a => rw [hanswer] at hrest; exact hrest
  | error f => rw [hanswer] at hrest; exact hrest

theorem read {next : Option Task → Dialogue α}
    (hnext : ∀ s', s.Later s' → known (log ++ [⟨.read, .ok (o.task? s')⟩]) s' →
      (next (o.task? s')).Holds o o.Conducted post (log ++ [⟨.read, .ok (o.task? s')⟩]) s') :
    (Dialogue.ask .read next).Holds o o.Conducted post log s := by
  refine hlasting.ask h trivial fun s' hs' hknown _ => ?_
  rw [o.answer_read hs'.settled] at hknown ⊢
  exact hnext s' hs' hknown

theorem commit {next : Unit → Dialogue α}
    (hnext : ∀ log' s', s.Later s' → known log' s' →
      (next ()).Holds o o.Conducted post log' s') :
    (Dialogue.ask .commit next).Holds o o.Conducted post log s := by
  refine hlasting.ask h trivial fun s' hs' hknown _ => ?_
  rw [o.answer_commit hs'.settled] at hknown ⊢
  exact hnext _ s' hs' hknown

theorem execution {id : String} {next : Except Failure (Option Execution) → Dialogue α}
    (hnext : ∀ log' s', s.Later s' → known log' s' →
      (next (.ok (s'.execution? id o.actor.org))).Holds o o.Conducted post log' s') :
    (Dialogue.ask (.execution id) next).Holds o o.Conducted post log s := by
  refine hlasting.ask h trivial fun s' hs' hknown _ => ?_
  rw [o.answer_execution hs'.settled] at hknown ⊢
  exact hnext _ s' hs' hknown

theorem record {action : String} {details : Json} {next : Unit → Dialogue α}
    (hnext : ∀ log' s', s.Later s' → known log' s' →
      (next ()).Holds o o.Conducted post log' s') :
    (Dialogue.ask (.log action details) next).Holds o o.Conducted post log s := by
  refine hlasting.ask h trivial fun s' hs' hknown hafter => ?_
  obtain ⟨a, hanswer⟩ := o.exists_answer_log (s := s') action details
  have hrest := hnext _ _ hafter hknown
  rw [hanswer] at hrest ⊢
  exact hrest

theorem load {next : Task → Dialogue α}
    (hnone : ∀ s', s.Later s' → known (log ++ [⟨.read, .ok none⟩]) s' → o.task? s' = none →
      post (.error missing) (log ++ [⟨.read, .ok none⟩]) s')
    (hsome : ∀ s' t, s.Later s' → known (log ++ [⟨.read, .ok (some t)⟩]) s' →
      o.task? s' = some t →
      (next t).Holds o o.Conducted post (log ++ [⟨.read, .ok (some t)⟩]) s') :
    (Lifecycle.load >>= next).Holds o o.Conducted post log s := by
  refine hlasting.read h fun s' hs' hknown => ?_
  cases ht : o.task? s' with
  | none => exact hnone s' hs' (ht ▸ hknown) ht
  | some t => exact hsome s' t hs' (ht ▸ hknown) ht

/-- The execution of a task is looked for, unless it has none. -/
theorem lookUp {next : Except Failure (Option Execution) → Dialogue α} (hs : s.Settled)
    (hnext : ∀ log' s', s.Later s' → known log' s' →
      (next (.ok (s'.executionOf? t o.actor.org))).Holds o o.Conducted post log' s') :
    (Lifecycle.lookUp t >>= next).Holds o o.Conducted post log s := by
  have hnow := hnext log s (.refl hs) h
  rw [Lifecycle.lookUp]
  split
  · rename_i hnone
    rw [Session.executionOf?_none (.inl hnone)] at hnow
    exact hnow
  · rename_i hempty
    rw [Session.executionOf?_none (.inr hempty)] at hnow
    exact hnow
  · rename_i id hid hsome
    refine hlasting.execution h fun log' s' hs' hknown => ?_
    have hrest := hnext log' s' hs' hknown
    rw [Session.executionOf?_some hsome hid] at hrest
    exact hrest

theorem executionOf {next : Option Execution → Dialogue α} (hs : s.Settled)
    (hnext : ∀ log' s', s.Later s' → known log' s' →
      (next (s'.executionOf? t o.actor.org)).Holds o o.Conducted post log' s') :
    (Lifecycle.executionOf t >>= next).Holds o o.Conducted post log s := by
  rw [Lifecycle.executionOf, Dialogue.bind_assoc]
  exact hlasting.lookUp h hs hnext

theorem workflowOf {next : Option String → Dialogue α} (hs : s.Settled)
    (hnext : ∀ log' s', s.Later s' → known log' s' →
      (next (s'.workflow? t o.actor.org)).Holds o o.Conducted post log' s') :
    (Lifecycle.workflowOf t >>= next).Holds o o.Conducted post log s := by
  rw [Lifecycle.workflowOf, Dialogue.bind_assoc]
  refine hlasting.lookUp h hs fun log' s' hs' hknown => ?_
  have hrest := hnext log' s' hs' hknown
  rw [Session.workflow?] at hrest
  cases hexecution : s'.executionOf? t o.actor.org with
  | none => rw [hexecution] at hrest; exact hrest
  | some execution => rw [hexecution] at hrest; exact hrest

/-- A conditional write is made, or the task is not one that it applies to. -/
theorem write {w : Write} {next : Option Task → Dialogue α}
    (hsafe : ∀ s' t, s.Later s' → o.task? s' = some t → w.applies t → w.Safe t)
    (hnone : ∀ log' s', s.Later s' → known log' s' →
      (∀ t, o.task? s' = some t → w.applies t = false) →
      (next none).Holds o o.Conducted post log' s')
    (hsome : ∀ s' t moment, s.Later s' → known log s' → w.applies t →
      o.task? s' = some (w.apply moment t) →
      o.Conducted (log ++ [⟨.write w, .ok (some (w.apply moment t))⟩]) s' ∧
      (next (some (w.apply moment t))).Holds o o.Conducted post
        (log ++ [⟨.write w, .ok (some (w.apply moment t))⟩]) s') :
    (Dialogue.ask (.write w) next).Holds o o.Conducted post log s := by
  intro s' hs'
  have hafter := o.later_answer hs'.settled (r := .write w) (hsafe s' · hs')
  have hnotapplied : (∀ t, o.task? s' = some t → w.applies t = false) →
      o.Conducted (log ++ [⟨.write w, .ok none⟩]) s' ∧
      -- The write finds no row it applies to: the log stays as it was, and so does all that is
      -- known.
      (next none).Holds o o.Conducted post (log ++ [⟨.write w, .ok none⟩]) s' := by
    intro hnot
    have hknown := hlasting.quiet (hlasting.later h hs')
      (show (⟨.write w, .ok none⟩ : Exchange).Quiet by cases w <;> exact ⟨rfl, rfl⟩)
    exact ⟨hlasting.conducted hknown, hnone _ s' hs' hknown hnot⟩
  refine ⟨(hsafe s' · hs'), ?_⟩
  rw [o.answer_write hs'.settled] at hafter ⊢
  cases ht : o.task? s' with
  | none => exact hnotapplied fun t h => by rw [ht] at h; cases h
  | some t =>
    rw [ht] at hafter
    simp only at hafter ⊢
    by_cases happlies : w.applies t
    · rw [if_pos happlies] at hafter ⊢
      refine hsome _ t _ (hs'.trans hafter) (hlasting.later h (hs'.trans hafter)) happlies ?_
      -- The answer is the row as it stands after the write, so it is read off the altered table.
      rw [Order.task?, Session.task?_alter fun u hu => w.isOf_apply _ hu, if_pos ⟨rfl, rfl⟩]
      rw [Order.task?] at ht
      rw [ht]
      rfl
    · rw [if_neg happlies]
      refine hnotapplied fun u hu => ?_
      rw [ht] at hu
      cases hu
      exact Bool.not_eq_true _ ▸ happlies

end Lasting

-- ============================================================================
-- Messages
-- ============================================================================

/-- The messages that are left are sent one after the other. -/
theorem holds_send {workflow : String} {messages : List Signal} {next : Bool → Dialogue α}
    (hs : s.Settled) (hwon : o.Won sent log s)
    (hmessages : sent ++ messages.map (workflow, ·) = o.messages s)
    (hnext : ∀ b log' s', s.Later s' → o.Won (o.messages s') log' s' →
      (next b).Holds o o.Conducted post log' s') :
    (send workflow messages >>= next).Holds o o.Conducted post log s := by
  -- Induction on the messages still to send: those sent and those to send are all there are.
  induction messages generalizing sent log s next with
  | nil =>
    rw [List.map_nil, List.append_nil] at hmessages
    exact hnext false log s (.refl hs) (hmessages ▸ hwon)
  | cons m rest ih =>
    intro s' hs'
    have hafter := hs'.trans (o.later_answer hs'.settled (r := .signal workflow m) trivial)
    obtain ⟨b, hanswer⟩ := o.exists_answer_signal hs'.settled workflow m
    have hsent := hwon.log.append (e := ⟨.signal workflow m, .ok b⟩) rfl
    have hmessages' : sent ++ [(workflow, m)] ++ rest.map (workflow, ·) =
        o.messages (o.answer (.signal workflow m) s').2 := by
      rw [hwon.messages_later hafter, ← hmessages, List.append_assoc]
      rfl
    have hwon' : o.Won (sent ++ [(workflow, m)]) (log ++ [⟨.signal workflow m, .ok b⟩])
        (o.answer (.signal workflow m) s').2 := ⟨(hwon.later hafter).row, hsent⟩
    refine ⟨trivial, ?_⟩
    rw [hanswer]
    refine ⟨.inr ⟨_, hwon', _, hmessages'⟩, ?_⟩
    show (((send workflow rest) >>= fun others => pure (b || others)) >>= next).Holds _ _ _ _ _
    -- The rest of the sending and what follows are one dialogue, as the hypothesis expects.
    rw [Dialogue.bind_assoc]
    exact ih hafter.settled hwon' hmessages' fun others log' s'' hs'' hwon'' =>
      hnext (b || others) log' s'' (hafter.trans hs'') hwon''

/-- Who has finished the task sends all messages, if there is a run to send them to. -/
theorem holds_announce {s' : Session} {next : Bool → Dialogue α} (ht : o.task? s = some t)
    (hdone : t.isDone) (hlater : s.Later s') (hwon : o.Won [] log s')
    (hnext : ∀ b log' s', s.Later s' → o.Won (o.messages s') log' s' →
      (next b).Holds o o.Conducted post log' s') :
    (announce t (o.news t) >>= next).Holds o o.Conducted post log s' := by
  rw [announce, Dialogue.bind_assoc]
  refine (lasting_won o []).workflowOf ⟨hwon, List.nil_prefix⟩ hlater.settled
    fun log'' s'' hs'' hknown => ?_
  obtain ⟨hwon', -⟩ := hknown
  have hlater' := hlater.trans hs''
  -- The run the task belongs to is the same one however much later it is looked up.
  have hworkflow : s''.workflow? t o.actor.org = s.workflow? t o.actor.org := by
    rw [Session.workflow?, Session.workflow?, Session.executionOf?_later hlater' (.refl t)]
  have hmessages := Order.messages_later hlater' ht hdone
  rw [hworkflow]
  cases hrun : s.workflow? t o.actor.org with
  | none =>
    rw [Order.messages_of_no_run ht hrun] at hmessages
    have hall : o.Won (o.messages s'') log'' s'' := by
      rw [hmessages]
      exact hwon'
    exact hnext false log'' s'' hlater' hall
  | some workflow =>
    rw [Order.messages_of_run ht hrun] at hmessages
    exact holds_send hs''.settled hwon' hmessages.symm fun b log₃ s₃ hs₃ =>
      hnext b log₃ s₃ (hlater'.trans hs₃)

/-- Who has marked the task as done tells the run, and has succeeded then. -/
theorem holds_tell {action : String} {details : Json} (ht : o.task? s = some t) (hdone : t.isDone)
    (hwon : o.Won [] log s)
    (hended : ∀ tr log' s', o.Won (o.messages s') log' s' → o.Ended (.ok tr) log' s') :
    (do
      Dialogue.request .commit
      let signaled ← announce t (o.news t)
      Dialogue.request (.log action details)
      pure { task := t, signaled } : Dialogue Transition).Holds o o.Conducted o.Ended log s := by
  refine (lasting_won o []).commit ⟨hwon, List.nil_prefix⟩ fun log' s' hs' hknown => ?_
  refine holds_announce ht hdone hs' hknown.1 fun b log₂ s₂ hs₂ hwon₂ => ?_
  refine (lasting_won o (o.messages s₂)).record ⟨hwon₂, List.prefix_refl _⟩
    fun log₃ s₃ hs₃ hknown₃ => ?_
  rw [← hwon₂.messages_later hs₃] at hknown₃
  exact hended _ log₃ s₃ hknown₃.1

-- ============================================================================
-- Deciding
-- ============================================================================

section Deciding

variable {decision : Decision} {given : Json} {comment : Option String}

/-- A conclusion that writes nothing may fail wherever its caller may not conclude the task as
read. -/
theorem ended_refused {f : Failure} (hoperation : o.operation = .conclude decision given)
    (hidle : log.Idle) (hrefused : ∀ t, log.seen? = some t → ¬ o.MayConclude given t s) :
    o.Ended (.error f) log s := by
  unfold Order.Ended
  rw [hoperation]
  exact ⟨hidle, fun t hseen hmay => absurd hmay (hrefused t hseen)⟩

/-- A conclusion of a task that is done already may be answered with the conflict. -/
theorem ended_late (hoperation : o.operation = .conclude decision given) (hidle : log.Idle)
    (ht : o.task? s = some t) (hdone : t.isDone) :
    o.Ended (.error (late "Task already completed" t)) log s := by
  unfold Order.Ended
  rw [hoperation]
  exact ⟨hidle, fun _ _ _ => ⟨t, ht, hdone, rfl⟩⟩

theorem ended_won {tr : Transition} (hoperation : o.operation = .conclude decision given)
    (hwon : o.Won (o.messages s) log s) : o.Ended (.ok tr) log s := by
  unfold Order.Ended
  rw [hoperation]
  exact hwon

/-- A decision about an approval that was open when it was read. -/
theorem holds_settle (hoperation : o.operation = .conclude decision given)
    (hcomment : commentOf given = .ok comment) (hidle : log.Idle) (ht : o.task? s = some t)
    (hkind : t.isApproval) :
    (settle decision o.actor o.task comment).Holds o o.Conducted o.Ended log s := by
  refine (lasting_idle o).write hidle (fun s' _ _ _ _ => rfl) ?_ ?_
  -- Another caller was first: the row is read again and the conflict names it.
  · intro log' s' hs' hidle' hnot
    obtain ⟨t', ht', hkept⟩ := Order.task?_later hs' ht
    have hkind' : t'.isApproval := by rw [hkept.isApproval]; exact hkind
    have hdone : t'.isDone := by simpa [Write.applies, hkind'] using hnot t' ht'
    refine (lasting_idle o).load hidle' ?_ ?_
    · intro s'' hs'' _ hnone
      exact absurd hnone (Order.ne_none_of_later hs'' ht')
    · intro s'' t'' hs'' hidle'' hsome
      have hkept' := Order.kept_of_later hs'' ht' hsome
      refine .require (fun _ => ?_) fun hnotapproval => ?_
      · exact ended_late hoperation hidle'' hsome (hkept'.isDone hdone)
      · rw [hkept'.isApproval, hkind'] at hnotapproval
        cases hnotapproval
  -- The write is this operation's own, and from here on only its messages are left.
  · intro s' t' moment hs' hidle' happlies ht'
    have hdecides : o.Decides ((Write.decide (some decision.outcome) comment).apply moment t') := by
      intro decision' given' hoperation'
      rw [hoperation] at hoperation'
      cases hoperation'
      exact ⟨rfl, hcomment⟩
    have hwon : o.Won [] (log ++ [⟨.write (.decide (some decision.outcome) comment),
        .ok (some ((Write.decide (some decision.outcome) comment).apply moment t'))⟩]) s' :=
      ⟨⟨_, ht', rfl, hdecides⟩, hidle'.finish rfl⟩
    refine ⟨.inr ⟨[], hwon, List.nil_prefix⟩, ?_⟩
    have hnews : o.news ((Write.decide (some decision.outcome) comment).apply moment t') =
        [.completed o.task o.actor.user, .decided decision.outcome comment o.actor.user] := by
      rw [Order.news, hoperation]
      rfl
    rw [← hnews]
    exact holds_tell ht' rfl hwon fun tr log' s' => ended_won hoperation

/-- Deciding, from the first look at the task on. -/
theorem holds_conclude (hoperation : o.operation = .conclude decision given) (s : Session) :
    (conclude decision o.actor o.task given).Holds o o.Conducted o.Ended [] s := by
  refine .lift (fun comment hcomment => ?_) fun f _ => ?_
  case refine_2 => exact ended_refused hoperation Log.idle_nil fun t hseen => by cases hseen
  refine (lasting_idle o).load Log.idle_nil ?_ fun s' t hs' hidle ht => ?_
  · exact fun s' _ hidle _ => ended_refused hoperation hidle fun t hseen => by cases hseen
  have hknown : (Log.Idle [⟨.read, .ok (some t)⟩]) ∧ Log.seen? [⟨.read, .ok (some t)⟩] = some t :=
    ⟨hidle, rfl⟩
  -- Every refusal after the read is of a caller who may not conclude the row just read.
  have hrefused : ∀ {f log s}, log.Idle ∧ log.seen? = some t → ¬ o.MayConclude given t s →
      o.Ended (.error f) log s := by
    intro f log s hknown hnot
    refine ended_refused hoperation hknown.1 fun u hseen => ?_
    obtain rfl : t = u := Option.some.inj (hknown.2.symm.trans hseen)
    exact hnot
  refine .require (fun hmutate => ?_) fun hno => hrefused hknown fun hmay => ?_
  case refine_2 => exact Bool.false_ne_true (hno.symm.trans hmay.1)
  refine .require (fun happroval => ?_) fun hno => hrefused hknown fun hmay => ?_
  case refine_2 => exact Bool.false_ne_true (hno.symm.trans hmay.2.1)
  refine .require (fun hopen => ?_) fun hdone => ?_
  case refine_2 => exact ended_late hoperation hidle ht (by simpa using hdone)
  refine (lasting_seen o t).executionOf hknown hs'.settled fun log' s'' hs'' hknown' => ?_
  -- The steps of the run are faulty, which the permission to conclude excludes.
  refine .lift (fun needed hneeded => ?_) fun f hfault => hrefused hknown' fun hmay => ?_
  case refine_2 =>
    obtain ⟨-, -, _, _, -, hsteps, -⟩ := hmay
    rw [← Session.stepsOf, hsteps] at hfault
    cases hfault
  -- A comment is needed and blank, which the permission to conclude excludes as well.
  refine .require (fun hgiven => ?_) fun hmissing => hrefused hknown' fun hmay => ?_
  case refine_2 =>
    obtain ⟨-, -, comment', needed', hcomment', hsteps, hsome⟩ := hmay
    rw [← Session.stepsOf, hsteps] at hneeded
    rw [hcomment] at hcomment'
    cases hneeded
    cases hcomment'
    cases needed
    · cases hmissing
    · rw [hsome rfl] at hmissing
      cases hmissing
  obtain ⟨u, hu, hkept⟩ := Order.task?_later hs'' ht
  exact holds_settle hoperation hcomment hknown'.1 hu (hkept.isApproval.trans happroval)

end Deciding

-- ============================================================================
-- Setting the status
-- ============================================================================

section Setting

variable {status : Json} {before : String}

theorem ended_unchanged {tr : Transition} (hoperation : o.operation = .setStatus status)
    (hidle : log.Idle) (hsignaled : tr.signaled = false)
    (hdone : status.text? = some done → tr.task.isDone) : o.Ended (.ok tr) log s := by
  unfold Order.Ended
  rw [hoperation]
  exact .inr ⟨hidle, hsignaled, hdone⟩

theorem ended_unset {f : Failure} (hoperation : o.operation = .setStatus status)
    (hidle : log.Idle) (hrefused : ∀ t, log.seen? = some t → status.text? = some done →
      o.actor.canMutate t.assignment → t.isApproval) : o.Ended (.error f) log s := by
  unfold Order.Ended
  rw [hoperation]
  exact ⟨hidle, hrefused⟩

theorem ended_finished {tr : Transition} (hoperation : o.operation = .setStatus status)
    (hwon : o.Won (o.messages s) log s) : o.Ended (.ok tr) log s := by
  unfold Order.Ended
  rw [hoperation]
  exact .inl hwon

/-- Marking as done a task that is not an approval. -/
theorem holds_finish (hoperation : o.operation = .setStatus status) (hidle : log.Idle)
    (ht : o.task? s = some t) (hkind : t.isApproval = false) :
    (finish o.actor o.task before).Holds o o.Conducted o.Ended log s := by
  refine (lasting_idle o).write hidle ?_ ?_ ?_
  · intro s' t' hs' ht' _
    exact (Order.kept_of_later hs' ht ht').isApproval.trans hkind
  -- Another caller completed the task first: what is read then is done, and no message is due.
  · intro log' s' hs' hidle' hnot
    obtain ⟨t', ht', hkept⟩ := Order.task?_later hs' ht
    have hdone : t'.isDone := by simpa [Write.applies] using hnot t' ht'
    refine (lasting_idle o).load hidle' ?_ ?_
    · intro s'' hs'' _ hnone
      exact absurd hnone (Order.ne_none_of_later hs'' ht')
    · intro s'' t'' hs'' hidle'' hsome
      have hkept' := Order.kept_of_later hs'' ht' hsome
      exact ended_unchanged hoperation hidle'' rfl fun _ => hkept'.isDone hdone
  · intro s' t' moment hs' hidle' happlies ht'
    have hdecides : o.Decides (Write.complete.apply moment t') := by
      intro decision given hconclude
      rw [hoperation] at hconclude
      cases hconclude
    have hwon : o.Won [] (log ++ [⟨.write .complete,
        .ok (some (Write.complete.apply moment t'))⟩]) s' :=
      ⟨⟨_, ht', rfl, hdecides⟩, hidle'.finish rfl⟩
    refine ⟨.inr ⟨[], hwon, List.nil_prefix⟩, ?_⟩
    have hnews : o.news (Write.complete.apply moment t') = [.completed o.task o.actor.user] := by
      rw [Order.news, hoperation]
    rw [← hnews]
    exact holds_tell ht' rfl hwon fun tr log' s' => ended_finished hoperation

/-- Setting another status than that of tasks that are done. -/
theorem holds_reopen {after : String} (hoperation : o.operation = .setStatus status)
    (hafter : after ≠ done) (hstatus : status.text? ≠ some done) (hidle : log.Idle) :
    (reopen before after).Holds o o.Conducted o.Ended log s := by
  have hunset : ∀ {f log s}, Log.Idle log → o.Ended (.error f) log s := fun hidle =>
    ended_unset hoperation hidle fun _ _ hdone => absurd hdone hstatus
  refine (lasting_idle o).write hidle (fun _ _ _ _ _ => hafter) ?_ ?_
  · intro log' s' _ hidle' _
    refine (lasting_idle o).load hidle' (fun s'' _ hidle'' _ => hunset hidle'') ?_
    exact fun s'' t'' _ hidle'' _ => hunset hidle''
  · intro s' t' moment _ hidle' _ _
    have hset := hidle'.append (e := ⟨.write (.setOpen after),
      .ok (some ((Write.setOpen after).apply moment t'))⟩) ⟨rfl, rfl⟩
    refine ⟨.inl hset, ?_⟩
    refine (lasting_idle o).commit hset fun _ _ _ hidle'' => ?_
    refine (lasting_idle o).record hidle'' fun _ _ _ hidle₃ => ?_
    exact ended_unchanged hoperation hidle₃ rfl fun hdone => absurd hdone hstatus

/-- Setting a status, from the first look at the task on. -/
theorem holds_setStatus (hoperation : o.operation = .setStatus status) (s : Session) :
    (setStatus o.actor o.task status).Holds o o.Conducted o.Ended [] s := by
  -- A status without a text is not `done`, and its text is compared in both spellings below.
  have hdone : status.text?.getD "" = done ↔ status.text? = some done := by
    cases status.text? with
    | none => decide
    | some text => rw [Option.getD_some, Option.some_inj]
  refine .require (fun _ => ?_) fun _ => ?_
  case refine_2 => exact ended_unset hoperation Log.idle_nil fun t hseen => by cases hseen
  refine (lasting_idle o).load Log.idle_nil ?_ fun s' t hs' hidle ht => ?_
  · exact fun s' _ hidle _ => ended_unset hoperation hidle fun t hseen => by cases hseen
  refine .require (fun _ => ?_) fun hno => ended_unset hoperation hidle ?_
  case refine_2 =>
    intro u hseen _ hmutate
    obtain rfl : t = u := Option.some.inj hseen
    exact absurd (hno.symm.trans hmutate) Bool.false_ne_true
  -- An approval is not completed by setting its status.
  refine .require (fun hallowed => ?_) fun happroval => ended_unset hoperation hidle ?_
  case refine_2 =>
    intro u hseen _ _
    obtain rfl : t = u := Option.some.inj hseen
    simp only [Bool.not_eq_false', Bool.and_eq_true] at happroval
    exact happroval.1
  by_cases hstatus : status.text?.getD "" = done
  -- The status asked for is `done`, and the task is no approval.
  · rw [if_pos (beq_iff_eq.2 hstatus)]
    refine holds_finish hoperation hidle ht ?_
    simpa [hstatus] using hallowed
  · rw [if_neg (by simpa using hstatus)]
    have hother := mt hdone.2 hstatus
    refine .require (fun _ => ?_) fun _ => ?_
    · exact holds_reopen hoperation hstatus hother hidle
    · exact ended_unset hoperation hidle fun _ _ hset => absurd hset hother

end Setting
-- ============================================================================
-- Claiming and editing
-- ============================================================================

/-- An operation neither marks a task as done nor sends a message, whatever it is answered. -/
def Dialogue.Quiet : Dialogue α → Prop
  | .done _ | .fail _ => True
  | .ask r next => r.Quiet ∧ ∀ answer, (next answer).Quiet

namespace Dialogue.Quiet

theorem bind {x : Dialogue α} {f : α → Dialogue β} (h : x.Quiet) (hf : ∀ a, (f a).Quiet) :
    (x >>= f).Quiet := by
  induction x with
  | done a => exact hf a
  | fail e => trivial
  | ask r next ih => exact ⟨h.1, fun answer => ih answer (h.2 answer)⟩

theorem request {r : Request} (h : r.Quiet) : (Dialogue.request r).Quiet := ⟨h, fun _ => trivial⟩

theorem require (c : Bool) (f : Failure) : (Dialogue.require c f).Quiet := by
  cases c <;> trivial

theorem load : Lifecycle.load.Quiet := by
  refine .bind (.request trivial) fun t => ?_
  cases t <;> trivial

theorem holds {x : Dialogue α} (h : x.Quiet)
    (hpost : ∀ result log s, Log.Idle log → post result log s) (hidle : log.Idle) :
    x.Holds o o.Conducted post log s := by
  induction x generalizing log s with
  | done a => exact hpost _ _ _ hidle
  | fail e => exact hpost _ _ _ hidle
  | ask r next ih =>
    refine (lasting_idle o).ask hidle h.1 fun s' _ hidle' _ => ?_
    generalize (o.answer r s').1 = answer at hidle' ⊢
    cases answer with
    | ok a => exact ih a (h.2 a) hidle'
    | error f => exact hpost _ _ _ hidle'

end Dialogue.Quiet

theorem quiet_claim (actor : AccessContext) : (claim actor).Quiet := by
  refine .bind .load fun t => .bind (.require _ _) fun _ => .bind (.require _ _) fun _ =>
    .bind (.require _ _) fun _ => .bind (.request trivial) fun claimed => ?_
  cases claimed with
  | none =>
    exact .bind (.request trivial) fun _ => .bind (.require _ _) fun _ =>
      .bind (.request trivial) fun _ => trivial
  | some t => exact .bind (.request trivial) fun _ => .bind (.request trivial) fun _ => trivial

theorem quiet_mutate (actor : AccessContext) (given : Fields) : (mutate actor given).Quiet := by
  unfold mutate
  -- The edit is the same with and without the changes that need a lookup first.
  extract_lets edit
  have hedit : ∀ u, (edit u).Quiet := by
    intro _
    refine .bind .load fun t => .bind (.require _ _) fun _ => .bind (.request trivial) fun t' => ?_
    cases t' with
    | none => trivial
    | some updated =>
      refine .bind (.request trivial) fun _ => ?_
      extract_lets record
      have hrecord : ∀ u, (record u).Quiet := fun _ => .bind (.request trivial) fun _ => trivial
      split
      · exact .bind (.request trivial) hrecord
      · exact hrecord ()
  split
  · trivial
  · exact hedit ()

-- ============================================================================
-- Any operation
-- ============================================================================

/-- Every operation keeps to its course. -/
theorem Order.holds (o : Order) (s : Session) : o.dialogue.Holds o o.Conducted o.Ended [] s := by
  -- The operations that finish no task say nothing but that their logs are idle.
  have hidle : ∀ {x : Dialogue Transition}, x.Quiet →
      (∀ result log s, Log.Idle log → o.Ended result log s) →
      x.Holds o o.Conducted o.Ended [] s := fun hquiet hended => hquiet.holds hended Log.idle_nil
  unfold Order.dialogue
  cases hoperation : o.operation with
  | claim =>
    refine hidle (quiet_claim _) fun result log s hlog => ?_
    unfold Order.Ended
    rw [hoperation]
    exact hlog
  | mutate given =>
    refine hidle (quiet_mutate _ given) fun result log s hlog => ?_
    unfold Order.Ended
    rw [hoperation]
    exact hlog
  | setStatus status => exact holds_setStatus hoperation s
  | conclude decision given => exact holds_conclude hoperation s

/-- An operation asks for nothing before it has looked at its task. -/
def Dialogue.Looks : Dialogue α → Prop
  | .done _ | .fail _ => True
  | .ask r _ => r = .read

theorem looks_require {c : Bool} {f : Failure} {next : Unit → Dialogue α} (h : (next ()).Looks) :
    (Dialogue.require c f >>= next).Looks := by
  cases c
  · trivial
  · exact h

/-- Whatever is asked for, the task is looked at first. -/
theorem Order.looks (o : Order) : o.dialogue.Looks := by
  unfold Order.dialogue
  cases o.operation with
  | claim => rfl
  | mutate given =>
    simp only [mutate]
    split <;> trivial
  | setStatus status => exact looks_require rfl
  | conclude decision given =>
    simp only [conclude]
    cases commentOf given <;> trivial

end Casework.Task
