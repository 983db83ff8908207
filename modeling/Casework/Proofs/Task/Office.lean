/-
  Casework.Proofs.Task.Office

  What stays so while many operations take turns: each of them keeps to its course, and the session
  only becomes a later one. A task that is done was marked as done by exactly one request since it
  was open.
-/
import Casework.Proofs.Task.Creation
import Casework.Proofs.Task.Length
import Casework.Proofs.Task.Operations

namespace Casework

/-- A task is there and done, as a session sees it. -/
def Session.isDone (s : Session) (id org : String) : Bool := (s.task? id org).any Task.isDone

namespace Task

open Dialogue (Log)

-- ============================================================================
-- One party
-- ============================================================================

/-- An operation that arrived since a session has kept to its course so far, and will. -/
structure Party.OnCourse (start : Session) (p : Party) (log : Log) (s : Session) : Prop where
  conducted : p.order.Conducted log s
  holds : p.rest.Holds p.order p.order.Conducted p.order.Ended log s
  within : p.rest.Within 8
  looked : log = [] ∧ p.rest.Looks ∨
    log ≠ [] ∧ ∃ s', start.Later s' ∧ log.seen? = p.order.task? s'

namespace Party.OnCourse

variable {start s s' : Session} {p : Party} {log : Log}

/-- An operation that has not begun is on course. -/
theorem begin (start : Session) (o : Order) (s : Session) : OnCourse start ⟨o, o.dialogue⟩ [] s :=
  ⟨.inl Log.idle_nil, o.holds s, o.within, .inl ⟨rfl, o.looks⟩⟩

/-- A party on course stays so in a later session. -/
theorem later (h : p.OnCourse start log s) (hs : s.Later s') : p.OnCourse start log s' :=
  ⟨h.conducted.later hs, h.holds.later (fun _ _ _ _ hlater hended => hended.later hlater) hs,
    h.within, h.looked⟩

/-- A party that is over and was on course has ended as it should. -/
theorem ended (h : p.OnCourse start log s) {result : Except Failure Transition}
    (hresult : p.rest.result? = some result) : p.order.Ended result log s := by
  rcases p with ⟨o, a | e | ⟨r, next⟩⟩
  · cases hresult
    exact h.holds
  · cases hresult
    exact h.holds
  · cases hresult

variable {o : Order} {r : Request} {next : r.Answer → Dialogue Transition}

/-- What a party on course asks for next is safe. -/
theorem safe (h : OnCourse start ⟨o, .ask r next⟩ log s) (hs : s.Settled) : o.Safe s r :=
  (h.holds s (.refl hs)).1

/-- An operation keeps to its course when its next request is answered. -/
theorem turn (h : OnCourse start ⟨o, .ask r next⟩ log s) (hs : start.Later s) :
    OnCourse start ⟨o, .resume next (o.answer r s).1⟩ (log ++ [⟨r, (o.answer r s).1⟩])
      (o.answer r s).2 := by
  obtain ⟨-, hconducted, hrest⟩ := h.holds s (.refl hs.settled)
  refine ⟨hconducted, ?_, ?_, .inr ⟨by simp, ?_⟩⟩
  · cases hanswer : (o.answer r s).1 with
    | ok a => rw [hanswer] at hrest; exact hrest
    | error f => rw [hanswer] at hrest; exact hrest
  · cases (o.answer r s).1 with
    | ok a => exact Dialogue.Within.mono (m := 7) (h.within a) (by omega)
    | error f => exact .fail f
  · rcases h.looked with ⟨rfl, hread⟩ | ⟨hlog, s', hs', hseen⟩
    · obtain rfl : r = .read := hread
      refine ⟨s, hs, ?_⟩
      rw [o.answer_read hs.settled]
      rfl
    · exact ⟨s', hs', by rw [Log.seen?_append hlog]; exact hseen⟩

/-- Who has asked for anything about a task that was there has seen it. -/
theorem exists_seen (h : p.OnCourse start log s) {t : Task} (ht : p.order.task? start = some t)
    (hlog : log ≠ []) : ∃ t', log.seen? = some t' ∧ t.Kept t' := by
  obtain ⟨hnil, -⟩ | ⟨-, s', hs', hseen⟩ := h.looked
  · exact absurd hnil hlog
  · obtain ⟨t', ht', hkept⟩ := Order.task?_later hs' ht
    exact ⟨t', hseen.trans ht', hkept⟩

end Party.OnCourse

-- ============================================================================
-- All parties
-- ============================================================================

namespace Office

variable {f : Office} {s : Session}

/-- A party that has not arrived has an empty log. -/
theorem log_eq_nil {i : Nat} (h : ∀ entry ∈ f.history, entry.1 < i) : f.log i = [] := by
  refine List.filterMap_eq_nil_iff.2 fun entry hentry => ?_
  rw [if_neg (Nat.ne_of_lt (h entry hentry))]

/-- A turn changes nothing, or has a request answered. -/
theorem turn_eq_or (f : Office) (index : Nat) :
    f.turn index = f ∨ ∃ o r next, f.parties[index]? = some ⟨o, .ask r next⟩ := by
  rw [turn]
  split
  · rename_i o r next hparty
    exact .inr ⟨o, r, next, hparty⟩
  · exact .inl rfl

section Turn

variable {index : Nat} {o : Order} {r : Request} {next : r.Answer → Dialogue Transition}

theorem session_turn (hparty : f.parties[index]? = some ⟨o, .ask r next⟩) :
    (f.turn index).session = (o.answer r f.session).2 := by
  rw [turn, hparty]

theorem history_turn (hparty : f.parties[index]? = some ⟨o, .ask r next⟩) :
    (f.turn index).history = f.history ++ [(index, ⟨r, (o.answer r f.session).1⟩)] := by
  rw [turn, hparty]

theorem parties_turn (hparty : f.parties[index]? = some ⟨o, .ask r next⟩) :
    (f.turn index).parties =
      f.parties.set index ⟨o, .resume next (o.answer r f.session).1⟩ := by
  rw [turn, hparty]

/-- A turn adds its exchange to the log of the party, and to no other. -/
theorem log_turn (hparty : f.parties[index]? = some ⟨o, .ask r next⟩) (i : Nat) :
    (f.turn index).log i =
      if index = i then f.log i ++ [⟨r, (o.answer r f.session).1⟩] else f.log i := by
  rw [log, history_turn hparty, List.filterMap_append, log]
  split <;> rename_i h <;> simp [h]

end Turn

/-- All operations keep to their courses, since a session. -/
structure Proper (s : Session) (f : Office) : Prop where
  later : s.Later f.session
  known : ∀ entry ∈ f.history, entry.1 < f.parties.length
  course : ∀ (i : Nat) (p : Party), f.parties[i]? = some p → p.OnCourse s (f.log i) f.session

namespace Proper

theorem opened (s : Session) : Proper (Office.opened s).session (Office.opened s) :=
  ⟨.refl rfl, fun _ h => absurd h List.not_mem_nil, fun _ _ h => by cases h⟩

theorem settled (h : Proper s f) : f.session.Settled := h.later.settled

/-- What happens without any of the operations. -/
theorem step (h : Proper s f) {s' : Session} (hs : f.session.Later s') :
    Proper s { f with session := s' } :=
  ⟨h.later.trans hs, h.known, fun i p hp => (h.course i p hp).later hs⟩

/-- An arrival changes nothing for the others, and the newcomer has still to begin. -/
theorem arrive (h : Proper s f) (o : Order) : Proper s (f.move (.arrive o)) := by
  refine ⟨h.later, fun entry hentry => ?_, fun i p hp => ?_⟩
  · have hlt := h.known entry hentry
    show entry.1 < (f.parties ++ [_]).length
    rw [List.length_append, List.length_singleton]
    omega
  · have hp : (f.parties ++ [⟨o, o.dialogue⟩])[i]? = some p := hp
    -- The parties that were there, the newcomer, and none behind.
    rcases Nat.lt_trichotomy i f.parties.length with hlt | heq | hgt
    · rw [List.getElem?_append_left hlt] at hp
      exact h.course i p hp
    · subst heq
      rw [List.getElem?_concat_length] at hp
      cases hp
      have hlog : f.log f.parties.length = [] := log_eq_nil h.known
      show Party.OnCourse s _ (f.log f.parties.length) f.session
      rw [hlog]
      exact .begin s o f.session
    · rw [List.getElem?_eq_none (by simp; omega)] at hp
      cases hp

/-- A turn of a party on course leaves a later session, in which all are on course. -/
theorem turn (h : Proper s f) (index : Nat) : Proper s (f.turn index) := by
  obtain heq | ⟨o, r, next, hparty⟩ := f.turn_eq_or index
  · rw [heq]
    exact h
  have hindex := (List.getElem?_eq_some_iff.1 hparty).1
  have hcourse := h.course index _ hparty
  have hafter := o.later_answer h.settled (hcourse.safe h.settled)
  refine ⟨?_, ?_, ?_⟩
  · rw [session_turn hparty]
    exact h.later.trans hafter
  · intro entry hentry
    rw [history_turn hparty] at hentry
    rw [parties_turn hparty, List.length_set]
    rcases List.mem_append.1 hentry with hold | hlast
    · exact h.known entry hold
    · obtain rfl := List.mem_singleton.1 hlast
      exact hindex
  · intro i p hp
    rw [parties_turn hparty] at hp
    rw [session_turn hparty, log_turn hparty]
    -- The party has gone on by one exchange; for all others the session is a later one.
    by_cases hi : index = i
    · subst hi
      rw [List.getElem?_set_self hindex] at hp
      cases hp
      rw [if_pos rfl]
      exact hcourse.turn h.later
    · rw [List.getElem?_set_ne hi] at hp
      rw [if_neg hi]
      exact (h.course i p hp).later hafter

theorem move (h : Proper s f) (m : Move) : Proper s (f.move m) := by
  cases m with
  | arrive o => exact h.arrive o
  | turn index => exact h.turn index
  | tick now => exact h.step (Session.Same.later ⟨h.settled, rfl, rfl⟩)
  | disturb trouble => exact h.step (Session.Same.later ⟨h.settled, rfl, rfl⟩)
  | create params => exact h.step (later_create params h.settled)

/-- What happens leads to a later session. -/
theorem later_move (h : Proper s f) (m : Move) : f.session.Later (f.move m).session := by
  cases m with
  | arrive o => exact .refl h.settled
  | turn index =>
    show f.session.Later (f.turn index).session
    obtain heq | ⟨o, r, next, hparty⟩ := f.turn_eq_or index
    · rw [heq]
      exact .refl h.settled
    · rw [session_turn hparty]
      exact o.later_answer h.settled ((h.course index _ hparty).safe h.settled)
  | tick now => exact Session.Same.later ⟨h.settled, rfl, rfl⟩
  | disturb trouble => exact Session.Same.later ⟨h.settled, rfl, rfl⟩
  | create params => exact later_create params h.settled

/-- Whatever happens, all operations keep to their courses. -/
theorem play (h : Proper s f) (moves : List Move) : Proper s (f.play moves) := by
  induction moves generalizing f with
  | nil => exact h
  | cons m rest ih => exact ih (h.move m)

/-- What nothing that happens undoes is always so. -/
theorem invariant (h : Proper s f) {P : Office → Prop}
    (hmove : ∀ f m, Proper s f → P f → P (f.move m)) (hf : P f) (moves : List Move) :
    P (f.play moves) := by
  induction moves generalizing f with
  | nil => exact hf
  | cons m rest ih => exact ih (h.move m) (hmove f m h hf)

/-- However it goes on, the session comes later. -/
theorem later_play (h : Proper s f) (moves : List Move) :
    f.session.Later (f.play moves).session := by
  induction moves generalizing f with
  | nil => exact .refl h.settled
  | cons m rest ih => exact (h.later_move m).trans (ih (h.move m))

end Proper
end Office
end Task
end Casework
