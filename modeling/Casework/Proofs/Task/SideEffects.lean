/-
  Casework.Proofs.Task.SideEffects

  What fails outside an operation has no influence on it. Runs, notices and the audit trail may each
  be reached or not, and the weather around the store and the engine may turn before every request.
  Until a task is written nothing outside is asked for, so an operation does the same in all
  weathers; afterwards all that it writes is committed, and what others do or fail to do neither
  changes a row, other than notices and entries of the trail, nor how the operation ends. What it
  says about messages is what became of them: that a run was told exactly if a message was
  delivered.
-/
import Casework.Proofs.Task.Phases

namespace Casework

open Store

-- ============================================================================
-- Weather
-- ============================================================================

/-- What may fail outside: the engine, the connection to it, and the audit trail. -/
structure Weather where
  trouble : EngineTrouble
  connected : Bool
  refusesAudit : Bool

namespace Session

/-- The weather in a session. -/
def weather (s : Session) : Weather := ⟨s.engine.trouble, s.engine.connected, s.refusesAudit⟩

/-- The session in another weather. -/
def under (w : Weather) : Session → Session :=
  amid (fun engine => { engine with trouble := w.trouble, connected := w.connected }) w.refusesAudit

end Session

/-- The records other than notices and entries of the audit trail. -/
def Records.inner (r : Records) : Records := { r with notices := [], audit := [] }

namespace Task

/-- A pattern of failures: what a request reaches, and how the weather turns before it is
answered. -/
structure Pattern where
  reach : Request → Reach
  turn : Request → Weather → Weather

namespace Pattern

/-- Answers a request of an operation under a pattern of failures. -/
def answer (p : Pattern) (id : String) (actor : AccessContext) (r : Request) : Tx r.Answer := do
  modify fun s => s.under (p.turn r s.weather)
  Task.answer (p.reach r) id actor r

variable (p q : Pattern) (id : String) (actor : AccessContext)

theorem result_answer (r : Request) (s : Session) :
    result (p.answer id actor r) s =
      result (Task.answer (p.reach r) id actor r) (s.under (p.turn r s.weather)) := rfl

end Pattern

/-- What an operation leads to under a pattern of failures, carried out in one go. -/
def Order.performUnder (o : Order) (p : Pattern) (s : Session) :
    Except Failure Transition × Session :=
  transact (o.dialogue.run (p.answer o.task o.actor)) s

/-- What an operation led to, without whether a run was told. -/
def Transition.unsaid (t : Transition) : Transition := { t with signaled := false }

-- ============================================================================
-- The first phase
-- ============================================================================

/-- A request to the store is answered alike whatever is in reach outside it. -/
theorem answer_inward {r : Request} (hr : r.Inward) (reach reach' : Reach) (id : String)
    (actor : AccessContext) : Task.answer reach id actor r = Task.answer reach' id actor r := by
  cases r <;> first | exact hr.elim | rfl

-- ============================================================================
-- The second phase
-- ============================================================================

/-- What a request has the engine take, going by the answer to it. -/
def Request.calls : (r : Request) → r.Answer → List EngineCall
  | .signal workflow m, sent => if sent then [.signal m workflow] else []
  | _, _ => []

/-- A request makes a call exactly where something was delivered. -/
theorem Request.calls_ne_nil_iff (r : Request) (a : r.Answer) : r.calls a ≠ [] ↔ r.delivered a := by
  cases r with
  | signal workflow m => cases a <;> simp [calls, delivered]
  | _ => simp [calls, delivered]

theorem Request.signal_of_mem_calls {r : Request} {a : r.Answer} {call : EngineCall}
    (h : call ∈ r.calls a) : ∃ m workflow, call = .signal m workflow := by
  cases r with
  | signal workflow m =>
    cases a with
    | false => cases h
    | true => exact ⟨m, workflow, List.mem_singleton.1 h⟩
  | _ => cases h

/-- The engine keeps a message exactly if it says that it took it. -/
theorem sent_send (e : Engine) (workflow : String) (m : Signal) :
    (e.send workflow m).2.sent =
      e.sent ++ if (e.send workflow m).1.isOk then [.signal m workflow] else [] := by
  unfold Engine.send Engine.call
  extract_lets connected
  have hsent : connected.sent = e.sent := rfl
  by_cases hconnected : connected.connected
  · cases e.troubleWith m with
    | some text => simp [hconnected, hsent, Except.isOk, Except.toBool]
    | none => simp [hconnected, hsent, Except.isOk, Except.toBool]
  · simp [hconnected, hsent, Except.isOk, Except.toBool]

variable (p q : Pattern) (id : String) (actor : AccessContext)

/-- What is asked for after the commit is always answered, and the answer says what the engine
took. -/
theorem answer_outward {r : Request} (hr : r.Outward) {s : Session}
    (hs : s.working.inner = s.committed.inner) :
    ∃ a s', result (p.answer id actor r) s = (.ok a, s') ∧ s'.working.inner = s.working.inner ∧
      s'.committed = s.committed ∧ s'.engine.sent = s.engine.sent ++ r.calls a := by
  rw [p.result_answer]
  generalize p.reach r = reach
  generalize hturned : s.under (p.turn r s.weather) = turned
  have hworking : turned.working = s.working := by rw [← hturned]; rfl
  have hcommitted : turned.committed = s.committed := by rw [← hturned]; rfl
  have hsent : turned.engine.sent = s.engine.sent := by rw [← hturned]; rfl
  rw [← hworking, ← hcommitted] at hs
  rw [← hworking, ← hcommitted, ← hsent]
  cases r with
  | execution e => exact ⟨_, turned, rfl, rfl, rfl, (List.append_nil _).symm⟩
  | signal workflow m =>
    rw [Task.answer]
    split
    · exact ⟨_, _, rfl, rfl, rfl, sent_send turned.engine workflow m⟩
    · exact ⟨_, _, rfl, rfl, rfl, (List.append_nil _).symm⟩
  | tell user title =>
    rw [Task.answer]
    split
    · have htold : Moves (.keeping Records.inner) (tryCatch
          (tellAssigned (.text actor.org) user id title (some actor.user)) fun _ => pure ()) :=
        .tryCatch (moves_tellAssigned (fun _ _ _ => rfl) _ _ _ _) fun _ => .pure _
      obtain ⟨hinner, hkept, hengine⟩ := htold turned
      obtain ⟨a, ha⟩ : ∃ a, (result (tryCatch (tellAssigned (.text actor.org) user id title
          (some actor.user)) fun _ => pure ()) turned).1 = .ok a :=
        exists_result_tryCatch (fun _ _ => ⟨(), rfl⟩) turned
      exact ⟨a, _, Prod.ext ha rfl, hinner, hkept,
        (congrArg Engine.sent hengine).trans (List.append_nil _).symm⟩
    · exact ⟨_, _, rfl, rfl, rfl, (List.append_nil _).symm⟩
  | log action details =>
    rw [Task.answer]
    split
    · obtain ⟨working, hrecord, hworking⟩ :=
        result_record actor.org (some actor.user) "task" id action details turned
      refine ⟨(), _, hrecord, ?_, rfl, (List.append_nil _).symm⟩
      show working.inner = turned.working.inner
      -- At most notices are dropped with the entry.
      rcases hworking with rfl | ⟨-, rfl⟩
      · exact hs.symm
      · rfl
    · exact ⟨_, _, rfl, rfl, rfl, (List.append_nil _).symm⟩
  | _ => exact hr.elim

/-- How the second phase of an operation ends: well, with the task that was written, and with no row
changed but notices and entries of the audit trail. It says whether the engine took a message. -/
structure Closed (t : Task) (showable told : Bool) (s : Session) (transition : Transition)
    (s' : Session)
    (calls : List EngineCall) : Prop where
  unsaid : transition.unsaid = { task := t, showable }
  signaled : transition.signaled ↔ told ∨ calls ≠ []
  working : s'.working.inner = s.working.inner
  committed : s'.committed = s.committed
  sent : s'.engine.sent = s.engine.sent ++ calls
  signals : ∀ call ∈ calls, ∃ m workflow, call = .signal m workflow

theorem closed_of_closes {t : Task} {showable told logged : Bool} {x : Dialogue Transition}
    (h : x.Closes t showable told logged) {s : Session} (hs : s.working.inner = s.committed.inner) :
    ∃ transition s' calls, result (x.run (p.answer id actor)) s = (.ok transition, s') ∧
      Closed t showable told s transition s' calls := by
  induction x generalizing told logged s with
  | done transition =>
    refine ⟨transition, s, [], rfl, ?_⟩
    rw [h.1]
    exact ⟨rfl, (or_iff_left (not_not_intro rfl)).symm, rfl, rfl, (List.append_nil _).symm, nofun⟩
  | fail f => exact h.elim
  | ask r next ih =>
    -- A request after the commit is answered under any failures, and the rows stay as they are.
    obtain ⟨a, s₁, hanswer, hworking, hcommitted, hsent⟩ := answer_outward p id actor h.1 hs
    obtain ⟨transition, s', calls, hrun, hclosed⟩ := ih a (h.2.2 a) (s := s₁) (by
      rw [hworking, hs, hcommitted])
    refine ⟨transition, s', r.calls a ++ calls, ?_, hclosed.unsaid, ?_,
      hclosed.working.trans hworking,
      hclosed.committed.trans hcommitted, ?_, fun call hcall => ?_⟩
    · rw [Dialogue.run, result_bind, hanswer]
      exact hrun
    -- Something was delivered by this request or later: the calls of both make up the list.
    · rw [hclosed.signaled, Bool.or_eq_true, ← r.calls_ne_nil_iff a, ne_eq calls, ne_eq (_ ++ _),
        List.append_eq_nil_iff, not_and_or, or_assoc]
    · rw [hclosed.sent, hsent, List.append_assoc]
    · rcases List.mem_append.1 hcall with hcall | hcall
      · exact Request.signal_of_mem_calls hcall
      · exact hclosed.signals call hcall

-- ============================================================================
-- Both phases
-- ============================================================================

/-- Nothing but messages was sent, and the operation says whether any was: a transition, that a run
was told exactly if the engine took a message, and who is refused has told nobody. -/
def Tallies (sent : List EngineCall) (ended : Except Failure Transition × Session) : Prop :=
  ∃ calls, ended.2.engine.sent = sent ++ calls ∧
    (∀ call ∈ calls, ∃ m workflow, call = .signal m workflow) ∧
    match ended.1 with
    | .ok transition => transition.signaled ↔ calls ≠ []
    | .error _ => calls = []

/-- Two ways in which an operation has ended are the same, apart from whether a run was told,
notices and the audit trail. -/
structure SameEnd (a b : Except Failure Transition × Session) : Prop where
  result : a.1.map Transition.unsaid = b.1.map Transition.unsaid
  working : a.2.working.inner = b.2.working.inner
  committed : a.2.committed.inner = b.2.committed.inner

/-- The weather is of no account for the request that ends the first phase: the commit. -/
theorem result_commit (s : Session) :
    ∃ w, result (p.answer id actor .commit) s =
      (.ok (), { s with committed := s.working }.under w) := ⟨_, rfl⟩

/-- A dialogue in its opening ends alike under any two weathers and patterns of failure. -/
theorem sameEnd_of_opens {x : Dialogue Transition} (h : x.Opens) (s : Session) (v w : Weather) :
    SameEnd (result (x.run (p.answer id actor)) (s.under v))
      (result (x.run (q.answer id actor)) (s.under w)) := by
  induction x generalizing s v w with
  | done transition => exact ⟨rfl, rfl, rfl⟩
  | fail f => exact ⟨rfl, rfl, rfl⟩
  | ask r next ih =>
    obtain ⟨hinward, hnext⟩ := h
    have hanswer : ∀ (p : Pattern) (v : Weather), ∃ v', result (p.answer id actor r) (s.under v) =
        ((result (Task.answer {} id actor r) s).1,
          (result (Task.answer {} id actor r) s).2.under v') := by
      intro p v
      rw [p.result_answer, answer_inward hinward (p.reach r) {}]
      have hcommutes : Commutes (Session.under (p.turn r (s.under v).weather))
          (Task.answer {} id actor r) := commutes_inward (f := Session.amid _ _) {} id actor hinward
      exact ⟨_, hcommutes s⟩
    obtain ⟨v', hv⟩ := hanswer p v
    obtain ⟨w', hw⟩ := hanswer q w
    rw [Dialogue.run, Dialogue.run, result_bind, result_bind, hv, hw]
    rcases result (Task.answer {} id actor r) s with ⟨f | a, s₁⟩
    · exact ⟨rfl, rfl, rfl⟩
    · have hrest := hnext a
      split at hrest
      case h_1 => exact ih a hrest s₁ v' w'
      case h_2 t _ =>
        -- The task is written: from the commit on, the two go their ways, and end the same.
        obtain ⟨showable, rest, hcommit, hcloses⟩ := hrest
        have hended : ∀ (p : Pattern) (v : Weather), ∃ transition s' calls,
            result ((next a).run (p.answer id actor)) (s₁.under v) = (.ok transition, s') ∧
              Closed t showable false { s₁ with committed := s₁.working } transition s' calls := by
          intro p v
          obtain ⟨v', hkeep⟩ := result_commit p id actor (s₁.under v)
          obtain ⟨transition, s', calls, hrun, hclosed⟩ := closed_of_closes p id actor hcloses
            (s := { s₁.under v with committed := s₁.working }.under v') rfl
          refine ⟨transition, s', calls, ?_, { hclosed with }⟩
          rw [hcommit, Dialogue.run, result_bind, hkeep]
          exact hrun
        obtain ⟨transition, s', calls, hrun, hclosed⟩ := hended p v'
        obtain ⟨transition', s'', calls', hrun', hclosed'⟩ := hended q w'
        dsimp only
        rw [hrun, hrun']
        refine ⟨congrArg Except.ok (hclosed.unsaid.trans hclosed'.unsaid.symm),
          hclosed.working.trans hclosed'.working.symm, ?_⟩
        rw [hclosed.committed, hclosed'.committed]

theorem tallies_of_opens {x : Dialogue Transition} (h : x.Opens) (s : Session) :
    Tallies s.engine.sent (result (x.run (p.answer id actor)) s) := by
  induction x generalizing s with
  | done transition =>
    refine ⟨[], (List.append_nil _).symm, nofun, ?_⟩
    show transition.signaled = true ↔ _
    rw [h]
    simp
  | fail f => exact ⟨[], (List.append_nil _).symm, nofun, rfl⟩
  | ask r next ih =>
    obtain ⟨hinward, hnext⟩ := h
    -- Before the write nothing is sent, so the engine is still as at the start.
    have hsent : (result (p.answer id actor r) s).2.engine.sent = s.engine.sent := by
      rw [p.result_answer,
        (moves_inward (R := anyhow) _ id actor (fun _ _ => trivial) hinward _).engine]
      rfl
    rw [← hsent, Dialogue.run, result_bind]
    rcases result (p.answer id actor r) s with ⟨f | a, s₁⟩
    · exact ⟨[], (List.append_nil _).symm, nofun, rfl⟩
    · have hrest := hnext a
      split at hrest
      case h_1 => exact ih a hrest s₁
      case h_2 t _ =>
        obtain ⟨showable, rest, hcommit, hcloses⟩ := hrest
        obtain ⟨w, hkeep⟩ := result_commit p id actor s₁
        -- The write is committed, and all that remains is its closing.
        obtain ⟨transition, s', calls, hrun, hclosed⟩ := closed_of_closes p id actor hcloses
          (s := { s₁ with committed := s₁.working }.under w) rfl
        have hended : result ((next a).run (p.answer id actor)) s₁ = (.ok transition, s') := by
          rw [hcommit, Dialogue.run, result_bind, hkeep]
          exact hrun
        dsimp only
        rw [hended]
        refine ⟨calls, hclosed.sent, hclosed.signals, hclosed.signaled.trans ?_⟩
        exact or_iff_right Bool.false_ne_true

-- ============================================================================
-- Operations
-- ============================================================================

/-- Side effects never influence a transition. Under any two patterns of failures an operation ends
in the same way, with the same task or the same failure, and leaves the same rows; only what it says
about messages, notices and entries of the audit trail can differ. Under each pattern, nothing but
messages is sent to the engine, and a transition says that a run was told exactly if the engine took
a message. -/
theorem Order.performUnder_same (o : Order) (s : Session) (p q : Pattern) :
    (o.performUnder p s).1.map Transition.unsaid = (o.performUnder q s).1.map Transition.unsaid ∧
      (o.performUnder p s).2.committed.inner = (o.performUnder q s).2.committed.inner ∧
      Tallies s.engine.sent (o.performUnder p s) := by
  have hsame : SameEnd (result (o.dialogue.run (p.answer o.task o.actor)) s)
      (result (o.dialogue.run (q.answer o.task o.actor)) s) :=
    sameEnd_of_opens p q o.task o.actor o.opens s s.weather s.weather
  have htally := tallies_of_opens p o.task o.actor o.opens s
  obtain ⟨hresult, hworking, hcommitted⟩ := hsame
  rw [performUnder, performUnder, transact_eq, transact_eq]
  rcases hp : result (o.dialogue.run (p.answer o.task o.actor)) s with ⟨f | a, s'⟩ <;>
    rcases hq : result (o.dialogue.run (q.answer o.task o.actor)) s with ⟨g | b, s''⟩ <;>
    rw [hp] at htally hresult hworking hcommitted <;> rw [hq] at hresult hworking hcommitted
  · exact ⟨hresult, hcommitted, htally⟩
  · cases hresult
  · cases hresult
  · exact ⟨hresult, hworking, htally⟩

end Task
end Casework
