/-
  Casework.Proofs.Run.Inbox

  What becomes of the messages about tasks in the inbox of a run. A decision is kept under the task
  that was completed last when it came in, whatever task it is about, until another decision takes
  its place. A task that is known to be completed stays known.
-/
import Casework.Proofs.Result
import Casework.Run.Inbox
import Mathlib.Data.List.Induction

namespace Casework

/-- The fields of a message that a decision was made. -/
def Signal.decision (outcome : String) (comment : Option String) (user : String) : Fields :=
  ⟨[("outcome", .text outcome), ("comment", .optText comment), ("approvedBy", .text user)]⟩

theorem Signal.decided_inj {outcome outcome' user user' : String} {comment comment' : Option String}
    (h : Signal.decided outcome comment user = .decided outcome' comment' user') :
    outcome = outcome' ∧ comment = comment' ∧ user = user' := by
  simp only [decided, Json.obj, approvalSubmitted.injEq, Json.object.injEq, Entries.mk.injEq,
    List.cons.injEq, Prod.mk.injEq, Json.text.injEq, true_and, and_true] at h
  obtain ⟨houtcome, hcomment, huser⟩ := h
  refine ⟨houtcome, ?_, huser⟩
  cases comment <;> cases comment' <;> simp_all [Json.optText]

/-- A message is about a task: that it is completed, or a decision. -/
inductive Signal.AboutTask : Signal → Prop where
  | completed (id user : String) : AboutTask (.completed id user)
  | decided (outcome : String) (comment : Option String) (user : String) :
    AboutTask (.decided outcome comment user)

/-- A message is a decision. -/
def Signal.isDecision : Signal → Bool
  | .taskCompleted _ => false
  | .approvalSubmitted _ => true

namespace Inbox

/-- A completion is taken to the completed tasks, unless the task has no id. -/
theorem receive_completed (inbox : Inbox) (id user : String) :
    inbox.receive (.completed id user) =
      .ok (if id = "" then inbox else inbox.complete (.text id)) := by
  -- An id that is empty counts as absent.
  have hkey : givenKey (.text id) = .ok (if id = "" then none else some (.text id)) := by
    rw [givenKey, Json.truthy, bne]
    by_cases hid : id = ""
    · rw [hid]
      rfl
    · rw [if_neg hid, beq_eq_false_iff_ne.2 hid]
      rfl
  have hfields : (Json.obj [("taskId", .text id), ("completedBy", .text user)]).givenFields "get" =
      .ok ⟨[("taskId", .text id), ("completedBy", .text user)]⟩ := rfl
  have htask : (⟨[("taskId", .text id), ("completedBy", .text user)]⟩ : Fields).value "taskId" =
      .text id := rfl
  rw [Signal.completed, receive, hfields, Result.ok_bind, htask, hkey]
  by_cases hid : id = ""
  · rw [if_pos hid, if_pos hid]
    rfl
  · rw [if_neg hid, if_neg hid]
    rfl

/-- A decision is filed under the task that was completed last, if there is one. -/
theorem receive_decided (inbox : Inbox) (outcome : String) (comment : Option String)
    (user : String) :
    inbox.receive (.decided outcome comment user) =
      .ok (match inbox.last with
        | some task => inbox.record task (Signal.decision outcome comment user)
        | none => inbox) := by
  show (match inbox.last with
    | some task => pure (inbox.record task (Signal.decision outcome comment user))
    | none => pure inbox) = _
  cases inbox.last <;> rfl

/-- What a run knows after several messages. -/
def told (signals : List Signal) : Inbox := (empty.receiveAll signals).1

/-- Signals about tasks are received one list after the other, since none of them fails. -/
theorem receiveAll_append {inbox : Inbox} {signals : List Signal}
    (h : ∀ m ∈ signals, m.AboutTask) (more : List Signal) :
    (inbox.receiveAll (signals ++ more)).1 = ((inbox.receiveAll signals).1.receiveAll more).1 := by
  induction signals generalizing inbox with
  | nil => rfl
  | cons m rest ih =>
    have hrest : ∀ m ∈ rest, m.AboutTask := fun m hm => h m (List.mem_cons_of_mem _ hm)
    rw [List.cons_append, receiveAll, receiveAll]
    cases h m List.mem_cons_self with
    | completed id user =>
      rw [receive_completed]
      exact ih hrest
    | decided outcome comment user =>
      rw [receive_decided]
      exact ih hrest

/-- A completion that is told last is taken behind all the others. -/
theorem told_completed {signals : List Signal} (h : ∀ m ∈ signals, m.AboutTask)
    (id user : String) :
    told (signals ++ [.completed id user]) =
      if id = "" then told signals else (told signals).complete (.text id) := by
  rw [told, receiveAll_append h, receiveAll, receive_completed]
  rfl

/-- A decision that is told last is filed under the task that was completed last before it. -/
theorem told_decided {signals : List Signal} (h : ∀ m ∈ signals, m.AboutTask)
    (outcome : String) (comment : Option String) (user : String) :
    told (signals ++ [.decided outcome comment user]) =
      match (told signals).last with
      | some task => (told signals).record task (Signal.decision outcome comment user)
      | none => told signals := by
  rw [told, receiveAll_append h, receiveAll, receive_decided]
  rfl

/-- The task that was completed last is known by a text. -/
theorem exists_text_of_last {signals : List Signal} (h : ∀ m ∈ signals, m.AboutTask) {task : Key}
    (hlast : (told signals).last = some task) : ∃ id, task = .text id := by
  induction signals using List.reverseRecOn with
  | nil => cases hlast
  | append_singleton signals m ih =>
    have hsignals : ∀ m ∈ signals, m.AboutTask := fun m hm => h m (List.mem_append_left _ hm)
    cases h m (by simp) with
    -- A completion leaves its own task, or, without an id, the one before.
    | completed id user =>
      rw [told_completed hsignals] at hlast
      split at hlast
      · exact ih hsignals hlast
      · exact ⟨id, (Option.some.inj hlast).symm⟩
    -- A decision leaves the task that was completed last.
    | decided outcome comment user =>
      rw [told_decided hsignals] at hlast
      cases hknown : (told signals).last with
      | none =>
        rw [hknown] at hlast
        rw [hknown] at hlast
        cases hlast
      | some known =>
        rw [hknown] at hlast
        have hsame : (told signals).last = some task := hlast
        exact ih hsignals hsame

/-- A task was completed last as long as no other one is completed. -/
theorem last_told_of_completed {before after : List Signal} {id user : String}
    (h : ∀ m ∈ before ++ .completed id user :: after, m.AboutTask) (hid : id ≠ "")
    (hafter : ∀ task user, .completed task user ∈ after → task = id) :
    (told (before ++ .completed id user :: after)).last = some (.text id) := by
  -- By induction on the signals that come behind, from their end.
  induction after using List.reverseRecOn with
  | nil =>
    have hbefore : ∀ m ∈ before, m.AboutTask := fun m hm => h m (List.mem_append_left _ hm)
    rw [told_completed hbefore, if_neg hid]
    rfl
  | append_singleton after m ih =>
    rw [← List.cons_append, ← List.append_assoc] at h ⊢
    have hinit : ∀ m ∈ before ++ .completed id user :: after, m.AboutTask :=
      fun m hm => h m (List.mem_append_left _ hm)
    have hlast := ih hinit fun task user hm => hafter task user (List.mem_append_left _ hm)
    cases h m (by simp) with
    | completed task other =>
      rw [told_completed hinit]
      split
      · exact hlast
      · rw [hafter task other (by simp)]
        rfl
    | decided outcome comment other =>
      rw [told_decided hinit, hlast]
      exact hlast

/-- A message is the decision that is kept under a task: the task was completed last when it came
in, and no decision that came in later found it so. -/
structure Kept (id : String) (signals before : List Signal) (m : Signal) (after : List Signal) :
    Prop where
  split : signals = before ++ m :: after
  last : (told before).last = some (.text id)
  latest : ∀ more other rest, after = more ++ other :: rest → other.isDecision →
    (told (before ++ m :: more)).last ≠ some (.text id)

theorem Kept.append {id : String} {signals before after : List Signal} {m other : Signal}
    (h : Kept id signals before m after)
    (hother : other.isDecision → (told signals).last ≠ some (.text id)) :
    Kept id (signals ++ [other]) before m (after ++ [other]) where
  split := by rw [h.split, List.append_assoc, List.cons_append]
  last := h.last
  latest more last rest hsplit hdecision := by
    rcases List.eq_nil_or_concat rest with rfl | ⟨rest, final, rfl⟩
    · obtain ⟨rfl, hlast⟩ := List.append_inj' hsplit rfl
      cases hlast
      rw [← h.split]
      exact hother hdecision
    · refine h.latest more last rest ?_ hdecision
      have hinit : after ++ [other] = (more ++ last :: rest) ++ [final] := by
        rw [hsplit, List.concat_eq_append, List.append_assoc, List.cons_append]
      exact (List.append_inj' hinit rfl).1

/-- What is kept under a task is a decision that came in while the task was completed last. -/
theorem exists_kept {signals : List Signal} (h : ∀ m ∈ signals, m.AboutTask) {id : String}
    {fields : Fields} (hfields : (told signals).approval? (.text id) = some fields) :
    ∃ before outcome comment user after,
      Kept id signals before (.decided outcome comment user) after ∧
        fields = Signal.decision outcome comment user := by
  -- By induction on the signals, from the last one.
  induction signals using List.reverseRecOn with
  | nil => cases hfields
  | append_singleton signals m ih =>
    have hsignals : ∀ m ∈ signals, m.AboutTask := fun m hm => h m (List.mem_append_left _ hm)
    cases h m (by simp) with
    -- A completion leaves the decisions as they are.
    | completed task user =>
      have hsame : (told signals).approval? (.text id) = some fields := by
        rw [told_completed hsignals] at hfields
        split at hfields
        · exact hfields
        · exact hfields
      obtain ⟨before, outcome, comment, user', after, hkept, rfl⟩ := ih hsignals hsame
      refine ⟨before, outcome, comment, user', after ++ [_], hkept.append ?_, rfl⟩
      exact fun hdecision => absurd hdecision Bool.false_ne_true
    | decided outcome comment user =>
      rw [told_decided hsignals] at hfields
      -- Nothing was completed before, so the decision is lost.
      cases hlast : (told signals).last with
      | none =>
        rw [hlast] at hfields
        obtain ⟨before, outcome', comment', user', after, hkept, rfl⟩ := ih hsignals hfields
        refine ⟨before, outcome', comment', user', after ++ [_], hkept.append fun _ => ?_, rfl⟩
        rw [hlast]
        simp
      -- The decision is filed under that task, which may be the one in question.
      | some key =>
        obtain ⟨task, rfl⟩ := exists_text_of_last hsignals hlast
        rw [hlast] at hfields
        have hput : (if id = task then some (Signal.decision outcome comment user)
            else (told signals).approval? (.text id)) = some fields := by
          rw [← hfields]
          exact (Table.get?_put_text _ _ _ _).symm
        split at hput
        case isTrue heq =>
          subst heq
          refine ⟨signals, outcome, comment, user, [], ⟨rfl, hlast, ?_⟩,
            (Option.some.inj hput).symm⟩
          intro more other rest hnil
          simp at hnil
        case isFalse hne =>
          obtain ⟨before, outcome', comment', user', after, hkept, rfl⟩ := ih hsignals hput
          refine ⟨before, outcome', comment', user', after ++ [_], hkept.append fun _ => ?_, rfl⟩
          rw [hlast]
          simpa using fun heq => hne heq.symm

/-! ## Completed tasks -/

/-- A completion comes behind all tasks that were completed before. -/
theorem completed_prefix_complete (inbox : Inbox) (task : Key) :
    inbox.completed <+: (inbox.complete task).completed := by
  rw [complete]
  split
  · exact List.prefix_refl _
  · exact List.prefix_append _ _

/-- A message leaves the completed tasks, and adds one at most. -/
theorem completed_prefix_receive {inbox inbox' : Inbox} {m : Signal}
    (h : inbox.receive m = .ok inbox') : inbox.completed <+: inbox'.completed := by
  cases m with
  | taskCompleted payload =>
    rw [receive] at h
    obtain ⟨fields, -, h⟩ := Result.bind_eq_ok_iff.1 h
    obtain ⟨task, -, h⟩ := Result.bind_eq_ok_iff.1 h
    cases task with
    | none => cases h; exact List.prefix_refl _
    | some task => cases h; exact completed_prefix_complete inbox task
  | approvalSubmitted payload =>
    rw [receive] at h
    obtain ⟨fields, -, h⟩ := Result.bind_eq_ok_iff.1 h
    obtain ⟨task, -, h⟩ := Result.bind_eq_ok_iff.1 h
    cases task with
    | some task => cases h; exact List.prefix_refl _
    | none =>
      dsimp only at h
      split at h <;> cases h <;> exact List.prefix_refl _

/-- Whatever signals are received, the tasks that were completed before stay. -/
theorem completed_prefix_receiveAll (inbox : Inbox) (signals : List Signal) :
    inbox.completed <+: (inbox.receiveAll signals).1.completed := by
  induction signals generalizing inbox with
  | nil => exact List.prefix_refl _
  | cons m rest ih =>
    rw [receiveAll]
    split
    case h_1 inbox' h => exact (completed_prefix_receive h).trans (ih inbox')
    case h_2 => exact List.prefix_refl _

/-- The completed tasks can be put in order. -/
def Orderable (inbox : Inbox) : Prop := ∃ keys, inbox.completedInOrder = .ok keys

instance (inbox : Inbox) : Decidable inbox.Orderable :=
  match h : inbox.completedInOrder with
  | .ok keys => isTrue ⟨keys, h⟩
  | .error _ => isFalse fun ⟨_, hkeys⟩ => by
    rw [h] at hkeys
    cases hkeys

/-- Tasks that can be put in order among more tasks can be put in order. -/
theorem Orderable.of_prefix {inbox inbox' : Inbox} (h : inbox'.Orderable)
    (hbegin : inbox.completed <+: inbox'.completed) : inbox.Orderable := by
  obtain ⟨keys, h⟩ := h
  simp only [Orderable, completedInOrder] at h ⊢
  split at h
  -- All tasks can be compared with one another, and so can those of the first ones.
  case isTrue hall =>
    have hinit : (inbox.completed.all fun a => inbox.completed.all fun b =>
        (before? a b).isSome) = true := by
      simp only [List.all_eq_true] at hall ⊢
      exact fun a ha b hb => hall a (hbegin.subset ha) b (hbegin.subset hb)
    rw [if_pos hinit]
    exact ⟨_, rfl⟩
  -- At most one task, where nothing is compared.
  case isFalse =>
    split at h
    case isTrue hlength =>
      rw [if_pos (Nat.le_trans hbegin.length_le hlength)]
      split <;> exact ⟨_, rfl⟩
    case isFalse => cases h

end Inbox
end Casework
