/-
  Casework.Proofs.Web.Refusal

  Refused requests change nothing. Whatever a route does, it can be refused only while it has
  changed nothing: acts are put together so that whatever has an effect is followed by what cannot
  be refused any more. What is refused can have begun, by looking things up; but neither is an id
  handed out, nor does the engine hear of anything, and since no refusal comes after a commit, the
  end of the session finds the store as it was.
-/
import Casework.Proofs.Store.Contact
import Casework.Proofs.Task.Phases
import Casework.Proofs.Web.Deeds

namespace Casework

open Store Result

-- ============================================================================
-- Refusals
-- ============================================================================

/-- The failures by which a request is refused: it is malformed, not allowed, about nothing that is
there, too late, or submits what does not compile. -/
def Failure.Refuses : Failure → Prop
  | .invalid _ | .forbidden _ | .notFound _ | .conflict _ | .issues _ => True
  | _ => False

namespace Web.Response

/-- The statuses of refusals. -/
def refusals : List Nat := [400, 401, 403, 404, 409, 422]

/-- A response refuses a request. -/
def Refuses (r : Response) : Prop := r.status ∈ refusals

theorem refuses_ofFailure_iff (f : Failure) : (ofFailure f).Refuses ↔ f.Refuses := by
  cases f with
  | invalid m =>
    exact iff_of_true (by simp [Refuses, refusals, ofFailure, problem, document]) trivial
  | forbidden m =>
    exact iff_of_true (by simp [Refuses, refusals, ofFailure, problem, document]) trivial
  | notFound m =>
    exact iff_of_true (by simp [Refuses, refusals, ofFailure, problem, document]) trivial
  | conflict c =>
    exact iff_of_true (by simp [Refuses, refusals, ofFailure, problem, document]) trivial
  | issues e =>
    exact iff_of_true (by simp [Refuses, refusals, ofFailure, problem, document]) trivial
  | _ => exact iff_of_false (by simp [Refuses, refusals, ofFailure, problem, document, broken]) id

theorem not_refuses {status : Nat} {value : Json} (h : status ∉ refusals) :
    ¬ (document status value).Refuses := h

end Web.Response

/-- The failures that no request is to blame for. -/
def Failure.Breaks (f : Failure) : Prop := ¬ f.Refuses

namespace Store

variable {α β : Type} {refuses : α → Prop}

/-- A result is a refusal: a failure that refuses, or a value that does. -/
def Refused (refuses : α → Prop) : Except Failure α → Prop
  | .ok a => refuses a
  | .error f => f.Refuses

/-- Whenever an act ends in a refusal, it has changed nothing. -/
def Spotless (refuses : α → Prop) (act : Tx α) : Prop :=
  ∀ s, Refused refuses (result act s).1 → (result act s).2 = s

/-- An act never ends in a refusal. -/
def Granted (refuses : α → Prop) (act : Tx α) : Prop := ∀ s, ¬ Refused refuses (result act s).1

/-- An act changes nothing, however it ends. -/
def Reads (act : Tx α) : Prop := ∀ s, (result act s).2 = s

-- ============================================================================
-- Acts that only read
-- ============================================================================

namespace Reads

variable {act : Tx α}

theorem pure (a : α) : Reads (pure a : Tx α) := fun _ => rfl

theorem throw (f : Failure) : Reads (throw f : Tx α) := fun _ => rfl

theorem lift (x : Except Failure α) : Reads (Store.lift x) := fun _ => rfl

/-- Reading and then reading leaves the state as it was. -/
theorem bind {next : α → Tx β} (h : Reads act) (hnext : ∀ a, Reads (next a)) :
    Reads (act >>= next) := by
  intro s
  have hact := h s
  rw [result_bind]
  rcases hresult : result act s with ⟨f | a, s'⟩ <;> rw [hresult] at hact <;> cases hact
  · rfl
  · exact hnext a s'

theorem map (g : α → β) (h : Reads act) : Reads (g <$> act) := by
  intro s
  rw [result_map]
  exact h s

theorem ite {c : Prop} [Decidable c] {other : Tx α} (h : Reads act) (h' : Reads other) :
    Reads (if c then act else other) := by
  split
  · exact h
  · exact h'

theorem spotless (h : Reads act) : Spotless refuses act := fun s _ => h s

end Reads

-- ============================================================================
-- Acts that are not refused
-- ============================================================================

namespace Granted

theorem pure {a : α} (h : ¬ refuses a) : Granted refuses (pure a : Tx α) := fun _ => h

theorem throw {f : Failure} (h : f.Breaks) : Granted refuses (throw f : Tx α) := fun _ => h

/-- Work whose failures all break off is granted where its values are. -/
theorem of_fails {act : Tx α} (h : FailsAs Failure.Breaks act) (hvalue : ∀ a, ¬ refuses a) :
    Granted refuses act := by
  intro s
  have hact := h s
  rcases hresult : (result act s).1 with f | a
  · exact hact f hresult
  · exact hvalue a

theorem bind {next : α → Tx β} {refuses : β → Prop} {act : Tx α} (h : FailsAs Failure.Breaks act)
    (hnext : ∀ a, Granted refuses (next a)) : Granted refuses (act >>= next) := by
  intro s
  have hact := h s
  rw [result_bind]
  rcases hresult : result act s with ⟨f | a, s'⟩ <;> rw [hresult] at hact
  · exact hact f rfl
  · exact hnext a s'

theorem spotless {act : Tx α} (h : Granted refuses act) : Spotless refuses act :=
  fun s hrefused => absurd hrefused (h s)

end Granted

-- ============================================================================
-- Acts that are refused in time
-- ============================================================================

namespace Spotless

/-- As long as the first part says that it has changed nothing, the rest may be refused, and must
not be otherwise. -/
theorem bind {nothing : α → Prop} {next : α → Tx β} {refuses : β → Prop} {act : Tx α}
    (h : Spotless nothing act) (hnothing : ∀ a, nothing a → Spotless refuses (next a))
    (hnext : ∀ a, ¬ nothing a → Granted refuses (next a)) : Spotless refuses (act >>= next) := by
  intro s
  have hact := h s
  rw [result_bind]
  rcases hresult : result act s with ⟨f | a, s'⟩ <;> rw [hresult] at hact
  · exact hact
  · intro hrefused
    by_cases ha : nothing a
    · obtain rfl : s' = s := hact ha
      exact hnothing a ha s' hrefused
    · exact absurd hrefused (hnext a ha s')

/-- What only reads can be followed by what may be refused. -/
theorem read {next : α → Tx β} {refuses : β → Prop} {act : Tx α} (h : Reads act)
    (hnext : ∀ a, Spotless refuses (next a)) : Spotless refuses (act >>= next) :=
  have hact : Spotless (fun _ => True) act := h.spotless
  hact.bind (fun a _ => hnext a) fun _ hnot => absurd trivial hnot

/-- What may be refused can be followed by what may not. -/
theorem grant {next : α → Tx β} {refuses : β → Prop} {act : Tx α}
    (h : Spotless (fun _ => False) act)
    (hnext : ∀ a, Granted refuses (next a)) : Spotless refuses (act >>= next) :=
  bind h (fun _ hfalse => hfalse.elim) fun a _ => hnext a

/-- That an entry was not taken is no refusal. -/
theorem holding {act : Tx α} (h : Spotless refuses act) : Spotless refuses (holding act) := by
  intro s
  have hact := h s
  rw [result_holding]
  rcases hresult : result act s with ⟨f | a, s'⟩ <;> rw [hresult] at hact
  · exact hact
  · show Refused refuses (if Missed s s' then .error (.store .expired) else .ok a) → s' = s
    split
    · exact fun hstale => hstale.elim
    · exact hact

theorem map {g : α → β} {refuses : β → Prop} {act : Tx α} (h : Spotless (fun _ => False) act)
    (hg : ∀ a, ¬ refuses (g a)) : Spotless refuses (g <$> act) := by
  rw [← bind_pure_comp]
  exact grant h fun a => .pure (hg a)

theorem ite {c : Prop} [Decidable c] {act other : Tx α} (h : Spotless refuses act)
    (h' : Spotless refuses other) : Spotless refuses (if c then act else other) := by
  split
  · exact h
  · exact h'

/-- A transaction that is refused leaves a settled session as it was. -/
theorem transact {act : Tx α} (h : Spotless refuses act) {s : Session} (hs : s.Settled) :
    Refused refuses (transact act s).1 → (transact act s).2 = s := by
  have hact := h s
  rw [transact_eq]
  rcases hresult : result act s with ⟨f | a, s'⟩ <;> rw [hresult] at hact
  · intro hrefused
    obtain rfl : s' = s := hact hrefused
    exact Task.Order.rollback_settled hs
  · intro hrefused
    obtain rfl : s' = s := hact hrefused
    exact Task.Order.commit_settled hs

end Spotless

-- ============================================================================
-- The store
-- ============================================================================

/-- A fault of the store breaks the request off. -/
theorem breaks_of_ofStore {x : Except StoreFault α} {f : Failure}
    (h : Failure.ofStore x = .error f) :
    f.Breaks := by
  cases x with
  | ok a => cases h
  | error fault =>
    cases h
    exact not_false

theorem fails_liftColumn (x : Except StoreFault α) : FailsAs Failure.Breaks (liftColumn x) :=
  .lift fun _ => breaks_of_ofStore

/-- Putting a row in fails by a fault of the store only. -/
theorem fails_add {ρ : Type} [Record ρ] (r : ρ) : FailsAs Failure.Breaks (add r) := by
  intro s f hf
  rw [result_add] at hf
  split at hf <;> cases hf
  exact not_false

/-- Finding an id fails by a fault of the store only. -/
theorem fails_identify (kind : RecordKind) (given : Json) :
    FailsAs Failure.Breaks (identify kind given) := by
  refine .of_ok fun s => ?_
  rw [identify]
  split <;> exact ⟨_, rfl⟩

/-- Looking up the senders changes nothing. -/
theorem reads_sendersOf (org : Json) : Reads (sendersOf org) := by
  refine .bind (.bind (.lift _) fun _ => .bind (.lift _) fun found => ?_) fun kept => ?_
  · cases found with
    | none => exact .pure _
    | some org => exact fun _ => rfl
  · cases kept with
    | none => exact .pure _
    | some kept => exact .pure _

/-- New senders are refused before anything is done. -/
theorem spotless_setSenders (org : String) (submitted : Json) :
    Spotless (fun _ => False) (setSenders org submitted) := by
  unfold setSenders
  split
  case h_1 => exact (Reads.throw _).spotless
  case h_2 addresses _ =>
    refine (Granted.of_fails (.bind (.of_ok fun _ => ⟨_, rfl⟩) fun moment =>
      .bind (.of_ok fun _ => ⟨_, rfl⟩) fun kept => ?_) fun _ => not_false).spotless
    cases kept with
    | none => exact .bind (fails_add _) fun _ => .of_ok fun _ => ⟨_, rfl⟩
    | some kept =>
      dsimp only
      split
      · exact .of_ok fun _ => ⟨_, rfl⟩
      · exact .bind (.of_ok fun _ => ⟨_, rfl⟩) fun _ => .of_ok fun _ => ⟨_, rfl⟩

/-- A contact is changed once nothing about it can be refused any more. -/
theorem spotless_updateContact (id org : String) (payload : Fields) :
    Spotless (fun found => found = none) (updateContact id org payload) := by
  intro s hrefused
  refine unchanged_of_updateContact fun shown hshown => ?_
  rw [hshown] at hrefused
  cases hrefused

/-- Creating a definition fails by a fault of the store only. -/
theorem fails_createDefinition (org : Json) (payload : Fields) :
    FailsAs Failure.Breaks (createDefinition org payload) :=
  .bind (fails_identify _ _) fun _ => .bind (.of_ok fun _ => ⟨_, rfl⟩) fun _ =>
    .bind (fails_liftColumn _) fun _ => .bind (fails_add _) fun _ => .of_ok fun _ => ⟨_, rfl⟩

/-- Creating an execution fails by a fault of the store only. -/
theorem fails_createExecution (org : Json) (d : ExecutionDraft) :
    FailsAs Failure.Breaks (createExecution org d) :=
  .bind (fails_identify _ _) fun _ => .bind (.of_ok fun _ => ⟨_, rfl⟩) fun _ =>
    .bind (fails_liftColumn _) fun _ => .bind (fails_add _) fun _ => .of_ok fun _ => ⟨_, rfl⟩

theorem fails_log (org : String) (user : Option String) (entityKind entity action : String)
    (details : Json) :
    FailsAs Failure.Breaks (holding (record org user entityKind entity action details)) :=
  .holding (.of_ok (exists_result_tryCatch fun _ _ => ⟨(), rfl⟩)) not_false

/-- A report fails only for what the store or the details do not take. -/
theorem fails_reportExecution (id org : Json) (r : Execution.Report) :
    FailsAs Failure.Breaks (reportExecution id org r) := by
  have hfind : FailsAs Failure.Breaks (findBy? id org : Tx (Option Execution)) := by
    refine .bind (fails_liftColumn _) fun id => .bind (fails_liftColumn _) fun org => ?_
    -- The row is found or not, without a failure.
    split <;> exact .of_ok fun _ => ⟨_, rfl⟩
  refine .bind hfind fun found => ?_
  cases found with
  | none => exact .of_ok fun _ => ⟨_, rfl⟩
  | some e =>
    refine .bind (.of_ok fun _ => ⟨_, rfl⟩) fun moment => .bind (.lift fun f hf => ?_) fun e' =>
      .bind (.of_ok fun _ => ⟨_, rfl⟩) fun _ => .of_ok fun _ => ⟨_, rfl⟩
    rw [Execution.Report.apply] at hf
    -- The details given are joined to those on the row, which fails by a broken store only.
    cases hdetails : Execution.Report.joined e.details r.details with
    | error fault =>
      rw [hdetails] at hf
      cases hf
      exact not_false
    | ok details =>
      rw [hdetails] at hf
      exact breaks_of_ofStore hf

end Store

-- ============================================================================
-- Operations on tasks
-- ============================================================================

namespace Task

open Dialogue

/-- An operation can be refused in its first phase only, and before it has written a task. -/
theorem spotless_of_opens (reach : Reach) (id : String) (actor : AccessContext)
    {x : Dialogue Transition}
    (h : x.Opens) : Spotless (fun _ => False) (x.run (Task.answer reach id actor)) := by
  induction x with
  | done t => exact (Reads.pure t).spotless
  | fail f => exact (Reads.throw f).spotless
  | ask r next ih =>
    obtain ⟨hinward, hnext⟩ := h
    -- A request of the opening that hands nothing over as written has left the state as it was.
    have hact : Spotless (fun a => r.written a = none) (answer reach id actor r) := by
      intro s hnothing
      refine unchanged_of_written_eq_none reach id actor hinward s fun a ha => ?_
      rw [ha] at hnothing
      exact hnothing
    refine hact.bind (fun a ha => ?_) fun a ha => ?_
    · have hrest := hnext a
      rw [ha] at hrest
      exact ih a hrest
    · have hrest := hnext a
      split at hrest
      case h_1 hnone => exact absurd hnone ha
      case h_2 t _ =>
        obtain ⟨showable, rest, hcommit, hcloses⟩ := hrest
        rw [hcommit]
        refine .bind (.of_ok fun _ => ⟨_, rfl⟩) fun _ =>
          .of_fails (.of_ok fun s => ?_) fun _ => not_false
        -- After the commit the operation ends in a transition whatever happens, so it refuses
        -- nothing.
        obtain ⟨transition, -, hended⟩ :=
          Order.exists_carry (o := ⟨id, actor, reach, .claim⟩) hcloses.yields s
        exact ⟨transition, hended⟩

end Task

-- ============================================================================
-- Executions
-- ============================================================================

namespace Trigger

theorem reads_prepare (id org : String) : Reads (prepare id org) := by
  refine .bind (fun _ => rfl) fun found => ?_
  cases found with
  | none => exact .throw _
  | some record => exact .bind (.lift _) fun _ => .bind (.lift _) fun _ => .pure _

/-- An execution can be refused before it is kept only. When it is, no engine is to blame the
request for not running it. -/
theorem spotless_trigger (definition : String) (actor : AccessContext) (contact : Option String) :
    Spotless (fun _ => False) (trigger definition actor contact) := by
  refine .read (reads_prepare definition actor.org) fun r =>
    .read (contactFor_reads r.definition actor.org contact) fun c => Granted.spotless ?_
  refine .bind (fails_createExecution _ _) fun e => .bind (.of_ok fun _ => ⟨_, rfl⟩) fun _ =>
    .bind (fails_log _ _ _ _ _ _) fun _ => .bind (.of_ok fun _ => ⟨_, rfl⟩) fun answer => ?_
  cases answer with
  | error error =>
    refine .bind (.bind ?_ fun _ => .of_ok fun _ => ⟨_, rfl⟩) fun _ => .throw not_false
    exact .bind (fails_reportExecution _ _ _) fun _ => .of_ok fun _ => ⟨_, rfl⟩
  | ok _ =>
    exact .bind (.of_ok fun _ => ⟨_, rfl⟩) fun _ => .bind (.of_ok fun _ => ⟨_, rfl⟩) fun _ =>
      .bind (.of_ok fun _ => ⟨_, rfl⟩) fun _ => .pure not_false

end Trigger

-- ============================================================================
-- Routes
-- ============================================================================

namespace Web.Service

open Response

/-- A faulty payload is refused before anything is done. -/
theorem spotless_withPayload {α : Type} {payload : Payload α} {act : α → Tx Response}
    (h : ∀ value, Spotless Refuses (act value)) : Spotless Refuses (withPayload payload act) := by
  cases payload with
  | ok value => exact h value
  | error violations => exact (Reads.pure _).spotless

/-- A missing permission is refused before anything is done. -/
theorem spotless_permitted {actor : AccessContext} {p : Permission} {act : Tx Response}
    (h : Spotless Refuses act) : Spotless Refuses (permitted actor p act) :=
  .ite h (Reads.pure _).spotless

/-- A missing or faulty actor is refused before anything is done. -/
theorem spotless_asActor {r : Request} {act : AccessContext → Tx Response}
    (h : ∀ actor, Spotless Refuses (act actor)) : Spotless Refuses (asActor r act) := by
  refine .read (unchanged_actorOf r) fun found => ?_
  cases found with
  | none => exact (Reads.pure _).spotless
  | some actor => exact h actor

theorem reads_present {α : Type} (name : String) {shown : α → Tx Response} {found : Option α}
    (h : ∀ value, Reads (shown value)) : Reads (present name shown found) := by
  cases found with
  | none => exact .pure _
  | some value => exact h value

section Actor

variable (actor : AccessContext) (id : String)

/-- A transition that cannot be shown is no refusal. -/
theorem spotless_operate (operation : Task.Operation) :
    Spotless Refuses (operate actor id (Task.Order.dialogue ⟨id, actor, {}, operation⟩)) := by
  have hopens := Task.Order.opens ⟨id, actor, {}, operation⟩
  refine .grant (.holding (Task.spotless_of_opens {} id actor hopens)) fun transition =>
    .bind (.lift fun f hf => ?_) fun _ => .pure (not_refuses (by decide))
  rw [Task.Transition.shown] at hf
  split at hf <;> cases hf
  exact not_false

theorem reads_showTask : Reads (showTask actor id) :=
  .bind (fun _ => rfl) fun _ => reads_present _ fun _ => .pure _

theorem reads_showContact : Reads (showContact actor id) := by
  refine .bind (fun _ => rfl) fun found => ?_
  cases found with
  | none => exact .pure _
  | some contact => exact .bind (fun _ => rfl) fun _ => .pure _

theorem reads_compileKept : Reads (compileKept actor id) :=
  .bind (fun _ => rfl) fun _ => reads_present _ fun _ => .map _ (.lift _)

/-- A refused change of a contact changes nothing. -/
theorem spotless_changeContact (payload : Fields) :
    Spotless Refuses (changeContact actor id payload) := by
  unfold changeContact
  extract_lets unknown
  refine .ite (Reads.pure _).spotless (.read (fun _ => rfl) fun access => ?_)
  refine .ite (Reads.pure _).spotless (.bind (spotless_updateContact id actor.org payload) ?_ ?_)
  · rintro _ rfl
    exact (Reads.pure _).spotless
  · intro found hfound
    cases found with
    | none => exact absurd rfl hfound
    | some shown => exact .bind (fails_log _ _ _ _ _ _) fun _ => .pure (not_refuses (by decide))

/-- A refused definition is not kept. -/
theorem spotless_createDefinition (payload : Fields) :
    Spotless Refuses (createDefinition actor payload) := by
  refine .read (.map _ (.lift _)) fun _ => Granted.spotless ?_
  refine .bind (fails_createDefinition _ payload) fun kept => ?_
  dsimp only
  split
  · exact .pure (not_refuses (by decide))
  · exact .throw not_false

/-- The health of the engine is never refused. -/
theorem granted_engineHealth : Granted Refuses engineHealth := by
  refine .bind (.of_ok fun _ => ⟨_, rfl⟩) fun answer => ?_
  cases answer <;> exact .pure (not_refuses (by decide))

end Actor

/-- Every route refuses a request while nothing is changed. -/
theorem spotless_answerRoute (r : Request) (route : Route) :
    Spotless Refuses (answerRoute r route) := by
  -- Reading routes change nothing; the others refuse only before their first write or by breaking
  -- off.
  cases route with
  | health => exact (Reads.pure _).spotless
  | engineHealth => exact granted_engineHealth.spotless
  | showTask id =>
    exact spotless_asActor fun actor => spotless_permitted (reads_showTask actor id).spotless
  | changeTask id =>
    exact spotless_asActor fun actor => spotless_withPayload fun given => spotless_permitted <|
      spotless_operate actor id (.mutate given)
  | claimTask id =>
    exact spotless_asActor fun actor => spotless_permitted <| spotless_operate actor id .claim
  | setStatus id =>
    exact spotless_asActor fun actor => spotless_withPayload fun status => spotless_permitted <|
      spotless_operate actor id (.setStatus (.text status))
  | conclude decision id =>
    exact spotless_asActor fun actor => spotless_withPayload fun comment => spotless_permitted <|
      spotless_operate actor id (.conclude decision comment)
  | createDefinition =>
    exact spotless_asActor fun actor => spotless_withPayload fun payload => spotless_permitted <|
      spotless_createDefinition actor payload
  | compileDraft =>
    exact spotless_asActor fun actor => spotless_withPayload fun payload => spotless_permitted <|
      (Reads.map _ (.lift _)).spotless
  | compileKept id =>
    exact spotless_asActor fun actor => spotless_permitted (reads_compileKept actor id).spotless
  | trigger =>
    exact spotless_asActor fun actor => spotless_withPayload fun start => spotless_permitted <|
      .grant (Trigger.spotless_trigger start.1 actor start.2) fun _ =>
        .pure (not_refuses (by decide))
  | showContact id =>
    exact spotless_asActor fun actor => spotless_permitted (reads_showContact actor id).spotless
  | changeContact id =>
    exact spotless_asActor fun actor => spotless_withPayload fun payload => spotless_permitted <|
      spotless_changeContact actor id payload
  | showSenders =>
    exact spotless_asActor fun actor => spotless_permitted
      (Reads.map _ (reads_sendersOf _)).spotless
  | changeSenders =>
    exact spotless_asActor fun actor => spotless_withPayload fun submitted => spotless_permitted <|
      .map (spotless_setSenders actor.org submitted) fun _ => not_refuses (by decide)

/-- What is done to answer a request. -/
def answering (r : Request) : Tx Response := do
  let response := (← answerMethod r r.method.toUpper).written
  if response.status == 500 then throw .unpresentable else pure response

/-- The response to a request, by what answering it has led to. -/
def responseOf : Except Failure Response → Response
  | .ok response => response
  | .error failure => ofFailure failure

/-- A request is answered in a transaction; what is only for the head carries nothing. -/
theorem answer_eq (r : Request) (s : Session) :
    answer r s =
      (if r.method.toUpper == "HEAD" then (responseOf (transact (answering r) s).1).headOnly
        else responseOf (transact (answering r) s).1, (transact (answering r) s).2) := by
  unfold answer
  extract_lets method act
  have hact : transact act s = transact (answering r) s := rfl
  rw [hact]
  rcases transact (answering r) s with ⟨f | response, s'⟩ <;> rfl

/-- The status of an answer is that of the response as it was made. -/
theorem status_answer (r : Request) (s : Session) :
    (answer r s).1.status = (responseOf (transact (answering r) s).1).status := by
  rw [answer_eq]
  dsimp only
  split <;> rfl

/-- A response is written as it is, or becomes an internal error. -/
theorem status_written (response : Response) :
    response.written = response ∨ response.written.status = 500 := by
  unfold written
  split
  · split
    · exact .inl rfl
    · exact .inr rfl
  · exact .inl rfl

/-- Refused requests change nothing. Whatever the store holds, whoever asks for whatever: if the
response is one of the refusals, then the store is as it was, no id was handed out, and nothing was
sent to the engine. -/
theorem answer_refused (r : Request) {s : Session} (hs : s.Settled)
    (hrefused : (answer r s).1.Refuses) :
    (answer r s).2 = s := by
  -- A path without a route is answered without touching the store.
  have hmethod : Spotless Refuses (answerMethod r r.method.toUpper) := by
    unfold answerMethod
    split
    · exact spotless_answerRoute r _
    · exact (Reads.pure _).spotless
    · exact (Reads.pure _).spotless
    · exact (Reads.pure _).spotless
  have hact : Spotless Refuses (answering r) := by
    refine .bind hmethod (fun response _ => ?_) fun response hgranted => ?_
    · exact (Reads.ite (.throw _) (.pure _)).spotless
    · dsimp only
      split
      case isTrue => exact .throw not_false
      case isFalse hstatus =>
        -- A response that cannot be written becomes an internal error, which is no refusal.
        rcases status_written response with hsame | hbroken
        · rw [hsame]
          exact .pure hgranted
        · exact absurd (beq_iff_eq.2 hbroken) hstatus
  rw [Refuses, status_answer] at hrefused
  rw [answer_eq]
  refine hact.transact hs ?_
  rcases hresult : (transact (answering r) s).1 with failure | response <;> rw [hresult] at hrefused
  · exact (refuses_ofFailure_iff failure).1 hrefused
  · exact hrefused

/-- The start of a definition that is there, about a contact that is not. -/
def startAbout (contact : String) : Request where
  method := "POST"
  target := "/api/v2/workflows/trigger"
  user := some "ann"
  org := some "org_2"
  role := some "org:admin"
  body := .obj [("workflow_definition_id", .text "case"), ("contact_id", .text contact)]

set_option maxRecDepth 4000 in
/-- That a definition was found and compiled leaves no trace when its contact is missing. -/
theorem answer_refused_startAbout :
    (answer (startAbout "nobody") (keptElsewhere "case")).1 =
      .problem 404 (.text "Contact not found") ∧
      (answer (startAbout "nobody") (keptElsewhere "case")).2 = keptElsewhere "case" := by
  have hresponse : (answer (startAbout "nobody") (keptElsewhere "case")).1 =
      .problem 404 (.text "Contact not found") := by
    with_unfolding_all exact rfl
  refine ⟨hresponse, answer_refused (startAbout "nobody") (settled_transact _ _) ?_⟩
  rw [hresponse]
  show 404 ∈ refusals
  decide

end Web.Service
end Casework
