/-
  Casework.Proofs.Web.Deeds

  What is done to the store from outside: requests are answered, runs have their work carried out,
  and operations on tasks are carried out on behalf of others. Each of these deeds is done for one
  organization, the one that the request or the parameters name, and writes for no other one,
  whatever ids it is given. So organizations do not change each other, and the tasks of all of them
  stay what tasks can be, whatever is done and in whatever order.
-/
import Casework.Proofs.Store.Writing
import Casework.Proofs.Web.Isolation

namespace Casework

open Store Result

-- ============================================================================
-- Requests
-- ============================================================================

namespace Web.Service

variable {orgs : String → Prop} {r : Request}

/-- A request with an actor belongs to the actor's organization. -/
theorem org_eq_of_actorOf {s s' : Session} {actor : AccessContext}
    (h : result (actorOf r) s = (.ok (some actor), s')) : r.org = some actor.org := by
  cases hr : r.org with
  | some org => rw [org_of_actorOf hr h]
  | none =>
    unfold actorOf at h
    rw [hr] at h
    split at h
    case h_1 | h_2 => cases h
    case h_3 hnone => exact absurd rfl hnone

/-- What writes for every actor of the organization writes for the one who asks. -/
theorem writes_asActor (hr : ∀ org ∈ r.org, orgs org) {act : AccessContext → Tx Response}
    (hact : ∀ actor, orgs actor.org → Advances (writing orgs) (act actor)) :
    Advances (writing orgs) (asActor r act) := by
  have hasks : Moves (writing orgs) (actorOf r) := .of_records_eq fun s => by
    rw [unchanged_actorOf]
    exact ⟨rfl, rfl, rfl⟩
  refine hasks.advances.bind_knowing (fun found => ∀ actor ∈ found, orgs actor.org)
    (fun s found s' hfound actor hactor => ?_) fun found hfound => ?_
  · cases hactor
    exact hr _ (org_eq_of_actorOf hfound)
  · cases found with
    | none => exact .pure _
    | some actor => exact hact actor (hfound actor rfl)

theorem writes_permitted {actor : AccessContext} {p : Permission} {act : Tx Response}
    (h : Advances (writing orgs) act) : Advances (writing orgs) (permitted actor p act) :=
  .ite h (.pure _)

/-- A request with a payload writes what the work on it writes; a faulty payload writes nothing. -/
theorem writes_withPayload {α : Type} {payload : Payload α} {act : α → Tx Response}
    (h : ∀ value, Advances (writing orgs) (act value)) :
    Advances (writing orgs) (withPayload payload act) := by
  cases payload with
  | ok value => exact h value
  | error violations => exact .pure _

theorem writes_present {α : Type} (name : String) {shown : α → Tx Response} {found : Option α}
    (h : ∀ value, Advances (writing orgs) (shown value)) :
    Advances (writing orgs) (present name shown found) := by
  cases found with
  | none => exact .pure _
  | some value => exact h value

theorem reads_find? {ρ : Type} [Record ρ] {R : Progress} (id org : String) :
    Advances R (Store.find? id org : Tx (Option ρ)) :=
  (Moves.of_records_eq fun _ => ⟨rfl, rfl, rfl⟩).advances

theorem reads_fieldAccess {R : Progress} (actor : AccessContext) : Advances R (fieldAccess actor) :=
  (Moves.bind (.bind (.select _) fun _ => .pure _) fun _ => .pure _).advances

section Actor

variable {actor : AccessContext}

/-- The operations of the routes are orders that reach all that is outside of them. -/
theorem writes_operate (horg : orgs actor.org) (id : String) (operation : Task.Operation) :
    Advances (writing orgs) (operate actor id (Task.Order.dialogue ⟨id, actor, {}, operation⟩)) :=
  .bind (.holding (Task.Order.writes ⟨id, actor, {}, operation⟩ horg)) fun _ =>
    .bind (.lift _) fun _ => .pure _

/-- A change of a contact writes in the organization of the actor only. -/
theorem writes_changeContact (horg : orgs actor.org) (id : String) (payload : Fields) :
    Advances (writing orgs) (changeContact actor id payload) := by
  unfold changeContact
  extract_lets unknown
  refine .ite (.pure _) (.bind (reads_fieldAccess actor) fun access => ?_)
  refine .ite (.pure _) (.bind (writes_updateContact horg id payload).advances fun found => ?_)
  cases found with
  | none => exact writes_present _ fun _ => .pure _
  | some shown => exact .bind (.holding (writes_record horg _ _ _ _ _)) fun _ => .pure _

/-- A new definition is written in the organization of the actor only. -/
theorem writes_createDefinition (horg : orgs actor.org) (payload : Fields) :
    Advances (writing orgs) (createDefinition actor payload) := by
  refine .bind (.map _ (.lift _)) fun _ =>
    .bind (Store.writes_createDefinition horg payload).advances fun kept => ?_
  dsimp only
  split
  · exact .pure _
  · exact .throw _

theorem writes_engineHealth : Advances (writing orgs) engineHealth := by
  refine .bind (.ask _) fun answer => ?_
  cases answer <;> exact .pure _

end Actor

/-- Every route writes for the organization that the request names. -/
theorem writes_answerRoute (hr : ∀ org ∈ r.org, orgs org) (route : Route) :
    Advances (writing orgs) (answerRoute r route) := by
  -- Every route that writes does so for the actor, whose organization the request names.
  cases route with
  | health => exact .pure _
  | engineHealth => exact writes_engineHealth
  | showTask id =>
    exact writes_asActor hr fun actor _ => writes_permitted <|
      .bind (reads_find? id actor.org) fun _ => writes_present _ fun _ => .pure _
  | changeTask id =>
    exact writes_asActor hr fun actor horg => writes_withPayload fun given => writes_permitted <|
      writes_operate horg id (.mutate given)
  | claimTask id =>
    exact writes_asActor hr fun actor horg => writes_permitted <| writes_operate horg id .claim
  | setStatus id =>
    exact writes_asActor hr fun actor horg => writes_withPayload fun status => writes_permitted <|
      writes_operate horg id (.setStatus (.text status))
  | conclude decision id =>
    exact writes_asActor hr fun actor horg => writes_withPayload fun comment => writes_permitted <|
      writes_operate horg id (.conclude decision comment)
  | createDefinition =>
    exact writes_asActor hr fun actor horg => writes_withPayload fun payload => writes_permitted <|
      writes_createDefinition horg payload
  | compileDraft =>
    exact writes_asActor hr fun actor _ => writes_withPayload fun payload => writes_permitted <|
      .map _ (.lift _)
  | compileKept id =>
    exact writes_asActor hr fun actor _ => writes_permitted <|
      .bind (reads_find? id actor.org) fun _ => writes_present _ fun _ => .map _ (.lift _)
  | trigger =>
    exact writes_asActor hr fun actor horg => writes_withPayload fun _ => writes_permitted <|
      .bind (Trigger.writes_trigger horg) fun _ => .pure _
  | showContact id =>
    refine writes_asActor hr fun actor _ => writes_permitted <|
      .bind (reads_find? id actor.org) fun found => ?_
    cases found with
    | none => exact writes_present _ fun _ => .pure _
    | some contact => exact .bind (reads_fieldAccess actor) fun _ => .pure _
  | changeContact id =>
    exact writes_asActor hr fun actor horg => writes_withPayload fun payload => writes_permitted <|
      writes_changeContact horg id payload
  | showSenders =>
    exact writes_asActor hr fun actor _ => writes_permitted <| .map _ (moves_sendersOf _).advances
  | changeSenders =>
    exact writes_asActor hr fun actor horg => writes_withPayload fun submitted =>
      writes_permitted <|
      .map _ (writes_setSenders horg submitted).advances

/-- What an answered request leaves has been written for the organization that it names. -/
theorem writes_answer (hr : ∀ org ∈ r.org, orgs org) {base : Records} {s : Session}
    (hs : (writing orgs).From base s) : (writing orgs).From base (answer r s).2 := by
  have hmethod : Advances (writing orgs) (answerMethod r r.method.toUpper) := by
    unfold answerMethod
    split
    · exact writes_answerRoute hr _
    · exact .pure _
    · exact .pure _
    · exact .pure _
  exact Advances.transact (.bind hmethod fun _ => .ite (.throw _) (.pure _)) hs

end Web.Service

-- ============================================================================
-- Deeds
-- ============================================================================

/-- Something that is done to the store and the engine, or happens to them. -/
inductive Deed where
  /-- A request is answered. -/
  | request (r : Web.Request)
  /-- What a run asks for is carried out. -/
  | work (a : Activity) (params : Fields)
  /-- An operation on a task is carried out, which may be cut off from what is outside of it. -/
  | operate (o : Task.Order)
  /-- Time passes, and what fails is another thing than before. -/
  | drift (now : Moment) (trouble : EngineTrouble) (refusesAudit : Bool)

namespace Deed

/-- The organization for which a deed is done, if it names one. -/
def org? : Deed → Option String
  | .request r => r.org
  | .work _ params =>
    match Column.text (params.value "org_id") with
    | .ok org => org
    | .error _ => none
  | .operate o => some o.actor.org
  | .drift _ _ _ => none

/-- What a deed leaves. Each has a session of its own. -/
def perform (s : Session) : Deed → Session
  | .request r => (Web.Service.answer r s).2
  | .work a params => (transact (Activities.perform a params) s).2
  | .operate o => (transact (o.dialogue.run (Task.answer o.reach o.task o.actor)) s).2
  | .drift now trouble refusesAudit =>
    { s with now, engine := { s.engine with trouble }, refusesAudit }

/-- What deeds leave, one after the other. -/
def performAll (s : Session) (deeds : List Deed) : Session := deeds.foldl perform s

variable {orgs : String → Prop} {base : Records} {s : Session}

/-- A deed writes for the organization for which it is done. -/
theorem writes_perform (d : Deed) (horg : ∀ org ∈ d.org?, orgs org)
    (hs : (writing orgs).From base s) :
    (writing orgs).From base (d.perform s) := by
  cases d with
  | request r => exact Web.Service.writes_answer horg hs
  | work a params =>
    refine (Activities.writes_perform a fun org hname => horg org ?_).advances.transact hs
    simp only [org?, hname]
    rfl
  | operate o => exact (o.writes (horg _ rfl)).transact hs
  | drift now trouble refusesAudit => exact ⟨hs.working, hs.committed⟩

/-- Deeds write for the organizations for which they are done. -/
theorem writes_performAll {deeds : List Deed} (horg : ∀ d ∈ deeds, ∀ org ∈ d.org?, orgs org)
    (hs : (writing orgs).From base s) : (writing orgs).From base (performAll s deeds) := by
  induction deeds generalizing s with
  | nil => exact hs
  | cons d rest ih =>
    refine ih (fun d' hd' => horg d' (List.mem_cons_of_mem _ hd')) ?_
    exact writes_perform d (horg d List.mem_cons_self) hs

/-- What is seen after a deed is committed, if it was before. -/
theorem settled_perform (hs : s.Settled) (d : Deed) : (d.perform s).Settled := by
  cases d with
  | request r => exact settled_transact _ s
  | work a params => exact settled_transact _ s
  | operate o => exact settled_transact _ s
  | drift now trouble refusesAudit => exact hs

theorem settled_performAll (hs : s.Settled) (deeds : List Deed) : (performAll s deeds).Settled := by
  induction deeds generalizing s with
  | nil => exact hs
  | cons d rest ih => exact ih (settled_perform hs d)

/-- Tasks and executions stay what they are, whatever is done. -/
theorem keepingRows_performAll (hs : s.Settled) (deeds : List Deed) :
    keepingRows.rel s.working (performAll s deeds).working := by
  have hfrom : (writing fun _ => True).From s.working s := ⟨.refl, hs ▸ .refl⟩
  exact rows_of_writing (writes_performAll (fun _ _ _ _ => trivial) hfrom).working

/-- Organizations do not change each other. Whatever is done for an organization, and whatever ids
it is given, what another organization sees of the store is as it was. -/
theorem view_performAll {org other : String} (hother : other ≠ org) {deeds : List Deed}
    (horg : ∀ d ∈ deeds, ∀ o ∈ d.org?, o = org) (hs : s.Settled) :
    (performAll s deeds).working.view other = s.working.view other ∧
      (performAll s deeds).committed.view other = s.committed.view other := by
  have hfrom : (writing fun o => o = org).From s.working s := ⟨.refl, hs ▸ .refl⟩
  have hwritten := writes_performAll horg hfrom
  rw [← hs]
  exact ⟨view_of_writing hother hwritten.working, view_of_writing hother hwritten.committed⟩

/-- A store in which an organization has a definition and a task. -/
def theirs : Session := performAll Web.Service.nothingKept [
  .request (Web.Service.submission "org_2" "case"),
  .work .createTask ⟨[("org_id", .text "org_2"), ("workflow_execution_id", .text "exec-1")]⟩]

/-- What another organization does with the ids of the definition and the task. -/
def intrusion : List Deed := [
  .request (Web.Service.submission "org_1" "case"),
  .request {
    method := "PATCH"
    target := "/api/v2/tasks/task-1/status"
    user := some "ann"
    org := some "org_1"
    role := some "org:admin"
    body := .obj [("status", .text "done")] },
  .work .createTask ⟨[("org_id", .text "org_1"), ("workflow_execution_id", .text "exec-1")]⟩]

set_option maxRecDepth 4000 in
/-- The task that is created is the intruder's own. -/
theorem view_performAll_intrusion :
    (performAll theirs intrusion).working.tasks.map (fun t => (t.id, t.org)) =
        [("task-1", "org_2"), ("task-2", "org_1")] ∧
      (performAll theirs intrusion).working.view "org_2" = theirs.working.view "org_2" ∧
      (performAll theirs intrusion).committed.view "org_2" = theirs.committed.view "org_2" := by
  have htasks : (performAll theirs intrusion).working.tasks.map (fun t => (t.id, t.org)) =
      [("task-1", "org_2"), ("task-2", "org_1")] := by
    with_unfolding_all exact rfl
  have horg : ∀ d ∈ intrusion, ∀ o ∈ d.org?, o = "org_1" := by
    simp [intrusion, org?, Web.Service.submission, Entries.value, Entries.get?, Column.text]
  exact ⟨htasks, view_performAll (by decide) horg (by with_unfolding_all exact rfl)⟩

end Deed
end Casework
