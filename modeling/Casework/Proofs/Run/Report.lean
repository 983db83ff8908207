/-
  Casework.Proofs.Run.Report

  What a run has reported of its end. A run is quiet as long as no call reports that it is over,
  open as long as no such report has succeeded, and closed when its last call was the only one and
  did. Steps leave a quiet run quiet.
-/
import Casework.Proofs.Run.Inbox
import Casework.Proofs.Run.Step

namespace Casework

variable {σ : Type}

-- ============================================================================
-- Reports of the end
-- ============================================================================

/-- The call that an event is, and its failure if it failed. -/
def Event.call? : Event → Option (Call × Option Failure)
  | .called call failure => some (call, failure)
  | .waited .. | .interrupted _ => none

/-- The call reports that its run is over. -/
def Call.IsFinal (c : Call) : Prop :=
  c.activity = .setState ∧ (c.params.value "completed").truthy = true

/-- The call reports that its run is over, and how far it is. -/
def Call.Ends (c : Call) (phase : RunPhase) : Prop :=
  c.activity = .setState ∧ c.params.value "completed" = .bool true ∧
    c.params.value "execution_state" = .text phase.word

namespace RunState

/-- The calls of a run, in order, each with its failure if it failed. -/
def calls (s : RunState σ) : List (Call × Option Failure) := s.history.filterMap Event.call?

theorem calls_note_called (s : RunState σ) (call : Call) (failure : Option Failure) :
    (s.note (.called call failure)).calls = s.calls ++ [(call, failure)] := by
  simp [calls, note, Event.call?]

theorem calls_note_waited (s : RunState σ) (seconds : Int) (result : WaitResult)
    (after : Option Snapshot) : (s.note (.waited seconds result after)).calls = s.calls := by
  simp [calls, note, Event.call?]

/-- A wait that is broken off is no call. -/
theorem calls_note_interrupted (s : RunState σ) (seconds : Int) :
    (s.note (.interrupted seconds)).calls = s.calls := by
  simp [calls, note, Event.call?]

/-- No call has reported the end of the run. -/
def Quiet (s : RunState σ) : Prop := ∀ call ∈ s.calls, ¬ call.1.IsFinal

/-- No report of the end of the run has succeeded. -/
def Open (s : RunState σ) : Prop := ∀ call ∈ s.calls, call.1.IsFinal → call.2 ≠ none

/-- The last call has reported how far the run is, and that it is over; no other call has. -/
def Closed (s : RunState σ) : Prop :=
  ∃ before last, s.calls = before ++ [(last, none)] ∧ last.Ends s.phase ∧
    ∀ call ∈ before, ¬ call.1.IsFinal

/-- One call leads from a state to another one. It is the last of the calls then; how far the run is
stays as it was, and completed tasks stay known. -/
structure Called (s s' : RunState σ) (call : Call) (failure : Option Failure) : Prop where
  calls : s'.calls = s.calls ++ [(call, failure)]
  phase : s'.phase = s.phase
  completed : s.inbox.completed <+: s'.inbox.completed

variable {s s' : RunState σ} {call : Call} {failure : Option Failure}

/-- A run that was quiet is open. -/
theorem Quiet.isOpen (h : s.Quiet) : s.Open := fun call hcall hfinal => absurd hfinal (h call hcall)

/-- A quiet run stays quiet after a call that ends nothing. -/
theorem Quiet.called (h : s.Quiet) (hcalled : s.Called s' call failure) (hcall : ¬ call.IsFinal) :
    s'.Quiet := by
  intro other hother
  rw [hcalled.calls, List.mem_append, List.mem_singleton] at hother
  rcases hother with hother | rfl
  · exact h other hother
  · exact hcall

/-- A failed report leaves the end of the run unreported. -/
theorem Quiet.isOpen_of_failed {f : Failure} (h : s.Quiet) (hcalled : s.Called s' call (some f)) :
    s'.Open := by
  intro other hother hfinal
  rw [hcalled.calls, List.mem_append, List.mem_singleton] at hother
  rcases hother with hother | rfl
  · exact absurd hfinal (h other hother)
  · exact Option.some_ne_none f

/-- A quiet run is closed by a call that ends it in its phase. -/
theorem Quiet.closed (h : s.Quiet) (hcalled : s.Called s' call none) (hcall : call.Ends s.phase) :
    s'.Closed :=
  ⟨s.calls, call, hcalled.calls, by rwa [hcalled.phase], h⟩

end RunState

namespace Run

open Result RunState

-- ============================================================================
-- Calls and waits
-- ============================================================================

/-- To have some work done is one call; after it holds what follows from the call and its answer. -/
theorem Ensures.perform {world : World σ} {activity : Activity} {params : Fields}
    {pre : RunState σ → Prop} {post : Except Failure Json → RunState σ → Prop}
    (hok : ∀ s s' answer, pre s → s.Called s' ⟨activity, params⟩ none → post (.ok answer) s')
    (herror : ∀ s s' f, pre s → s.Called s' ⟨activity, params⟩ (some f) →
      post (.error .activity) s') :
    Ensures (perform world activity params) pre post := by
  intro s hs
  have hcalled : ∀ failure, s.Called ((afterWork world ⟨activity, params⟩ s).note
      (.called ⟨activity, params⟩ failure)) ⟨activity, params⟩ failure :=
    fun failure => ⟨calls_note_called .., rfl, Inbox.completed_prefix_receiveAll ..⟩
  rw [outcome_perform]
  cases (world.perform ⟨activity, params⟩ s.outside).1 with
  | ok answer => exact hok s _ answer hs (hcalled none)
  | error failure => exact herror s _ failure hs (hcalled (some failure))

/-- To wait calls nothing. -/
theorem calls_await (world : World σ) (seconds : Int) (holds : Inbox → Bool) (s : RunState σ) :
    (outcome (await world seconds holds) s).2.calls = s.calls := by
  rw [outcome_await]
  split
  · exact calls_note_waited ..
  · cases (s.inbox.receiveAll (world.deliver s.outside).1).2 with
    | ok _ => exact calls_note_waited ..
    | error f => exact calls_note_interrupted ..

/-- Work that is no report of the end leaves a run quiet. -/
theorem Keeps.perform {world : World σ} {activity : Activity} {params : Fields}
    (h : ¬ Call.IsFinal ⟨activity, params⟩) :
    Keeps (perform world activity params) Quiet fun _ => Open :=
  Ensures.perform (fun _ _ _ hs hcalled => hs.called hcalled h)
    fun _ _ _ hs hcalled => (hs.called hcalled h).isOpen

/-- A run is quiet as long as its reports do not say that it is over. A failure leaves it open. -/
theorem lasting_quiet (world : World σ) :
    Lasting world (fun params => (params.value "completed").truthy = false) (fun _ => True)
      (fun _ => True) Quiet fun _ => Open where
  enter _ _ hs := hs
  steady s s' _ hhistory _ _ hs call hcall := by
    rw [RunState.calls, hhistory] at hcall
    exact hs call hcall
  put _ _ _ _ hs := hs
  work hactivity _ := .perform fun hfinal => hactivity hfinal.1
  create _ := .perform fun hfinal => by cases hfinal.1
  report hreport := .perform fun hfinal => absurd hfinal.2 (by simp [hreport])
  await := by
    intro seconds holds s hs
    -- The wait itself calls nothing, whether it ends well or is broken off.
    have hquiet : (outcome (Run.await world seconds holds) s).2.Quiet := by
      intro call hcall
      rw [calls_await] at hcall
      exact hs call hcall
    rcases hawait : outcome (Run.await world seconds holds) s with ⟨result, s'⟩
    rw [hawait] at hquiet
    cases result with
    | ok _ => exact hquiet
    | error f => exact hquiet.isOpen
  fault _ _ hs := hs.isOpen

end Run
end Casework
