/-
  Casework.Proofs.Web.Isolation

  Organizations do not observe each other, but for the ids of definitions. Every request is answered
  on behalf of the organization that it names: all that a route does is confined to that
  organization, so the response and the changes to what the organization sees depend on nothing but
  that. There is one exception. Who submits a definition can choose its id, and an id can be chosen
  once only, whichever organizations there are; so it can be noticed whether another organization
  has a definition of this id. Where the id is in use in both stores or in neither, there is no
  difference.
-/
import Casework.Proofs.Store.Confined
import Casework.Web.Service

namespace Casework

open Store Result

-- ============================================================================
-- Tasks
-- ============================================================================

namespace Task

/-- A request of an operation is confined to the actor's organization. -/
theorem confined_answer (id : String) (actor : AccessContext) (request : Request) :
    Confined actor.org (answer {} id actor request) := by
  cases request with
  | read => exact .find? id
  | isThere => exact .map _ (.find? id)
  | write w => exact confined_writeTask w id
  | update given => exact confined_updateTask id given
  | commit => exact .commit
  | execution execution => exact .map _ (.find? execution)
  | signal workflow message => exact .andThen (.ask _) fun _ => .pure _
  | tell user title => exact .tryCatch (confined_tellAssigned user id title _) fun _ => .pure _
  | log action details => exact confined_record _ _ _ action details

/-- An operation on a task is confined because each of its requests is. -/
theorem confined_perform (id : String) (actor : AccessContext) (p : Dialogue Transition) :
    Confined actor.org (perform id actor p) := by
  unfold perform
  induction p with
  | done t => exact .pure t
  | fail f => exact .throw f
  | ask request next ih => exact .andThen (confined_answer id actor request) ih

end Task

-- ============================================================================
-- Executions
-- ============================================================================

namespace Trigger

variable {definition : String} {actor : AccessContext} {contact : Option String}

theorem confined_prepare : Confined actor.org (prepare definition actor.org) :=
  .find?_bind (.throw _) (fun _ _ => .andThen (.lift _) fun _ =>
    .andThen (.lift _) fun _ => .pure _)
    fun _ hs => hs

theorem confined_contactFor (d : Definition) :
    Confined actor.org (contactFor d actor.org contact) := by
  unfold contactFor
  split
  case h_1 | h_2 => exact .ite (.throw _) (.pure _)
  case h_3 id _ => exact .find?_bind (.throw _) (fun _ _ => .pure _) fun _ hs => hs

theorem confined_keep : Confined actor.org (keep definition actor contact) :=
  .andThen (.andThen confined_prepare fun r => .andThen (confined_contactFor r.definition) fun _ =>
    .andThen (confined_createExecution rfl) fun _ => .pure _) fun _ =>
      .andThen .commit fun _ => .andThen (.holding (confined_record _ _ _ _ _)) fun _ => .pure _

/-- Compensating a failed start touches the organization of the execution only. -/
theorem confined_compensate {d : Definition} {e : Execution} {org : String} (he : e.org = org)
    (error : String) : Confined org (compensate d e error) := by
  subst he
  exact .andThen (.discard (confined_reportExecution _ _)) fun _ => .commit

/-- Starting the run of an execution touches its organization only. -/
theorem confined_start {k : Kept} (hk : k.execution.org = actor.org) :
    Confined actor.org (start actor k) := by
  refine .andThen (.ask _) fun answer => ?_
  cases answer with
  | error error => exact .andThen (confined_compensate hk error) fun _ => .throw _
  | ok _ =>
    exact .andThen (confined_nameRun _ _ _ _) fun _ => .andThen .commit fun _ =>
      .andThen .now fun _ => .pure _

/-- Starting an execution is confined: the one that is kept belongs to the actor's organization. -/
theorem confined_trigger : Confined actor.org (trigger definition actor contact) := by
  rw [trigger_eq]
  refine .bind_knowing confined_keep (fun k => k.execution.org = actor.org)
    (fun s k s' hkeep => ?_) (fun k hk => confined_start hk) fun _ hs => hs
  rcases keep_cases definition actor contact s with ⟨f, _, hfails, -⟩ | ⟨_, _, hkept, hfollows, -⟩
  · rw [hfails] at hkeep
    cases hkeep
  · rw [hkept] at hkeep
    cases hkeep
    exact hfollows.org

end Trigger

-- ============================================================================
-- Definitions
-- ============================================================================

/-- The id that a payload chooses for its definition, if it chooses one. -/
def DefinitionDraft.chosen? (payload : Fields) : Option String :=
  match Column.text (ofPayload payload).id with
  | .ok id => id
  | .error _ => none

/-- The ids that are to be handed out are unused, and so is the id that was chosen. -/
def Session.Admits (chosen : Option String) (s : Session) : Prop :=
  s.Unused ∧ ∀ id ∈ chosen, id ∉ s.working.ids .definition

namespace Store

variable {α : Type} {org : String}

/-- What is confined needs no more than the ids that are to be handed out. -/
theorem Confined.admits {act : Tx α} (h : Confined org act) (chosen : Option String) :
    Local org (Session.Admits chosen) (fun _ => True) act :=
  fun s hs => ⟨(h s hs.1).1, trivial⟩

/-- An id that is given is taken over. -/
theorem identify_of_ne_null {kind : RecordKind} {given : Json} (h : given ≠ .null) :
    identify kind given = pure given := by
  rw [identify, if_neg]
  cases given <;> first | exact absurd rfl h | exact Bool.false_ne_true

/-- Putting a definition is local if its id is handed out or not in use. -/
theorem local_createDefinition (payload : Fields) :
    Local org (Session.Admits (DefinitionDraft.chosen? payload)) (fun _ => True)
      (createDefinition (.text org) payload) := by
  unfold createDefinition
  dsimp only
  -- Without an id of its own the definition gets a fresh one, which no row can have.
  by_cases hnull : (DefinitionDraft.ofPayload payload).id = .null
  · rw [hnull]
    refine Confined.admits (.identify_null_bind fun id => .bind .bareNow (fun moment => ?_)
      fun _ hs => hs.unused) _
    refine .liftColumn_bind (fun r hr => ?_) fun _ hs => hs.unused
    obtain ⟨hid, horg⟩ := keys_of_definition hr
    cases hid
    exact .bind (.add_offered (r := r) horg (fun _ => rfl) fun x hclash =>
      (beq_iff_eq.1 hclash).symm) (fun _ => .pure _) fun _ hs => hs
  · rw [identify_of_ne_null hnull, pure_bind]
    refine .bind .bareNow (fun moment => .liftColumn_bind (fun r hr => ?_) fun _ _ => trivial)
      fun _ _ => trivial
    obtain ⟨hid, horg⟩ := keys_of_definition hr
    have hchosen : r.id ∈ DefinitionDraft.chosen? payload := by
      simp only [DefinitionDraft.chosen?, hid]
      rfl
    refine .bind (.add (r := r) horg (fun s hs x hx hclash => ?_) fun _ _ => ⟨trivial, trivial⟩)
      (fun _ => .pure _) fun _ hs => hs
    -- A row with the chosen id is excluded by the hypothesis, in whatever organization it lies.
    have hsame : r.id = x.id := beq_iff_eq.1 hclash
    exact absurd (hsame ▸ List.mem_map_of_mem hx) (hs.2 r.id hchosen)

/-- A definition whose id is in use is refused, in the same way whatever else the store holds. -/
theorem refused_createDefinition (org : String) {payload : Fields} {id : String}
    (hid : id ∈ DefinitionDraft.chosen? payload) (moment : Moment) :
    ∃ f, ∀ s : Session, s.now = moment → id ∈ s.working.ids .definition →
      result (createDefinition (.text org) payload) s = (.error f, s) := by
  have hne : (DefinitionDraft.ofPayload payload).id ≠ .null := by
    intro hnull
    rw [DefinitionDraft.chosen?, hnull] at hid
    cases hid
  -- The id is given, so only the clock is read before the row is put in.
  have hcreate : createDefinition (.text org) payload = (do
      let record ← liftColumn ((DefinitionDraft.ofPayload payload).record
        (DefinitionDraft.ofPayload payload).id (.text org) (← bareNow))
      add record
      pure (DefinitionDraft.ofPayload payload, record)) := by
    rw [createDefinition]
    dsimp only
    rw [identify_of_ne_null hne, pure_bind]
  cases hrecord : (DefinitionDraft.ofPayload payload).record (DefinitionDraft.ofPayload payload).id
      (.text org) moment.bare with
  | error fault =>
    refine ⟨.store fault, fun s hnow _ => ?_⟩
    rw [hcreate, result_bind, result_bareNow, hnow]
    dsimp only
    rw [hrecord]
    rfl
  | ok r =>
    refine ⟨.store .constraint, fun s hnow hused => ?_⟩
    obtain ⟨hcolumn, -⟩ := keys_of_definition hrecord
    obtain rfl : r.id = id := by
      simpa [DefinitionDraft.chosen?, hcolumn] using hid
    -- The id is in use, so the row clashes with the one that has it.
    obtain ⟨x, hx, hsame⟩ := List.mem_map.1 hused
    have hclash : (Record.all s.working).any (Record.clash r) = true :=
      List.any_eq_true.2 ⟨x, hx, beq_iff_eq.2 hsame.symm⟩
    rw [hcreate, result_bind, result_bareNow, hnow]
    dsimp only
    rw [hrecord, result_bind, show result (liftColumn (.ok r)) s = (.ok r, s) from rfl]
    dsimp only
    rw [result_bind, result_add, if_pos hclash]

end Store

-- ============================================================================
-- Routes
-- ============================================================================

namespace Web

/-- The id that a request chooses for a definition that it submits. -/
def Request.chosen? (r : Request) : Option String :=
  match Route.find r.method.toUpper (partsOf r.target), Payload.object r.body with
  | .route .createDefinition, .ok payload => DefinitionDraft.chosen? payload
  | _, _ => none

namespace Service

variable {org : String} {pre post : Session → Prop}

theorem local_present {α : Type} (name : String) {shown : α → Tx Response} {found : Option α}
    (h : ∀ value, Local org pre pre (shown value)) :
    Local org pre pre (present name shown found) := by
  cases found with
  | none => exact .pure _
  | some value => exact h value

/-- Work on a payload is local where it is local for the payload that was read. -/
theorem local_withPayload {α : Type} {payload : Payload α} {act : α → Tx Response}
    (h : ∀ value, payload = .ok value → Local org pre post (act value))
    (hpost : ∀ s, pre s → post s) : Local org pre post (withPayload payload act) := by
  cases payload with
  | ok value => exact h value rfl
  | error violations => exact .mono (.pure _) hpost

/-- Permitted work is local, and a refusal leaves everything as it was. -/
theorem local_permitted {actor : AccessContext} {p : Permission} {act : Tx Response}
    (h : Local org pre post act) (hpost : ∀ s, pre s → post s) :
    Local org pre post (permitted actor p act) := by
  unfold permitted
  split
  · exact h
  · exact .mono (.pure _) hpost

/-- Who asks is found out in the organization that the request names, and acts for it. -/
theorem local_actorOf {r : Request} (hr : r.org = some org) : Local org pre pre (actorOf r) := by
  unfold actorOf
  rw [hr, Option.getD_some]
  split
  case h_1 | h_2 => exact .pure _
  case h_3 => exact .andThen (local_membership? _) fun _ => .map _ (.liftFault _)

/-- A context read from a membership acts for the organization asked for. -/
theorem org_of_contextOf {user : String} {declared : Option String} {member : Option Membership}
    {actor : AccessContext} (h : contextOf user org declared member = .ok actor) :
    actor.org = org := by
  unfold contextOf at h
  dsimp only at h
  cases member
  all_goals
    obtain ⟨further, -, h⟩ := bind_eq_ok_iff.1 h
    obtain ⟨roles, -, h⟩ := bind_eq_ok_iff.1 h
    cases h
    rfl

/-- The actor found acts for the organization that the request names. -/
theorem org_of_actorOf {r : Request} (hr : r.org = some org) {s s' : Session}
    {actor : AccessContext}
    (h : result (actorOf r) s = (.ok (some actor), s')) : actor.org = org := by
  unfold actorOf at h
  rw [hr, Option.getD_some] at h
  split at h
  case h_1 | h_2 => cases h
  case h_3 =>
    obtain ⟨member, found, -, hcontext⟩ := result_bind_eq_ok_iff.1 h
    rw [result_map] at hcontext
    generalize hcontextOf : contextOf _ _ _ _ = context at hcontext
    cases context with
    | error fault => cases hcontext
    | ok context =>
      cases hcontext
      exact org_of_contextOf hcontextOf

/-- What is local for every actor of the organization is local for the one who asks. -/
theorem local_asActor {r : Request} (hr : r.org = some org) {act : AccessContext → Tx Response}
    (hact : ∀ actor, actor.org = org → Local org pre post (act actor))
    (hpost : ∀ s, pre s → post s) :
    Local org pre post (asActor r act) := by
  refine .bind_knowing (local_actorOf hr) (fun found => ∀ actor ∈ found, actor.org = org)
    (fun s found s' hfound actor hactor => ?_) (fun found hfound => ?_) hpost
  · cases hactor
    exact org_of_actorOf hr hfound
  · cases found with
    | none => exact .mono (.pure _) hpost
    | some actor => exact hact actor (hfound actor rfl)

section Confined

variable {actor : AccessContext}

/-- Confined work on a payload stays confined, and a faulty payload is answered at once. -/
theorem confined_withPayload {α : Type} {payload : Payload α} {act : α → Tx Response}
    (h : ∀ value, Confined org (act value)) : Confined org (withPayload payload act) :=
  local_withPayload (fun value _ => h value) fun _ hs => hs

/-- Confined work stays confined behind a check of permission. -/
theorem confined_permitted {p : Permission} {act : Tx Response} (h : Confined org act) :
    Confined org (permitted actor p act) :=
  local_permitted h fun _ hs => hs

/-- An operation on a task is confined to the actor's organization. -/
theorem confined_operate (id : String) (p : Task.Dialogue Task.Transition) :
    Confined actor.org (operate actor id p) :=
  .andThen (.holding (Task.confined_perform id actor p)) fun _ =>
    .andThen (.lift _) fun _ => .pure _

theorem confined_showContact (id : String) : Confined actor.org (showContact actor id) := by
  refine .andThen (.find? id) fun found => ?_
  cases found with
  | none => exact local_present _ fun _ => .pure _
  | some contact => exact .andThen (.andThen confined_policiesOf fun _ => .pure _) fun _ => .pure _

/-- A change of a contact is confined to the actor's organization. -/
theorem confined_changeContact (id : String) (payload : Fields) :
    Confined actor.org (changeContact actor id payload) := by
  unfold changeContact
  dsimp only
  refine .ite (.pure _) (.andThen (.andThen confined_policiesOf fun _ => .pure _) fun access =>
    .ite (.pure _) (.andThen (confined_updateContact id payload) fun found => ?_))
  cases found with
  | none => exact local_present _ fun _ => .pure _
  | some shown => exact .andThen (.holding (confined_record _ _ _ _ _)) fun _ => .pure _

theorem confined_compileKept (id : String) : Confined actor.org (compileKept actor id) :=
  .andThen (.find? id) fun _ => local_present _ fun _ => .map _ (.lift _)

/-- A new definition is local where the id it chooses is free everywhere. -/
theorem local_createDefinition (payload : Fields) :
    Local actor.org (Session.Admits (DefinitionDraft.chosen? payload)) (fun _ => True)
      (createDefinition actor payload) := by
  refine .bind (.discard (.lift _)) (fun _ => .bind (Store.local_createDefinition payload)
    (fun kept => ?_) fun _ hs => hs) fun _ _ => trivial
  dsimp only
  split
  · exact .pure _
  · exact .throw _

theorem confined_engineHealth : Confined org engineHealth := by
  refine .andThen (.ask _) fun answer => ?_
  cases answer <;> exact .pure _

end Confined

/-- What is confined to the organization of every actor is local for the one who asks, whatever id
the request chooses. -/
theorem admits_asActor {r : Request} (hr : r.org = some org) {act : AccessContext → Tx Response}
    (hact : ∀ actor : AccessContext, Confined actor.org (act actor)) :
    Local org (Session.Admits r.chosen?) (fun _ => True) (asActor r act) := by
  refine Confined.admits (local_asActor hr (fun actor hactor => ?_) fun _ hs => hs) _
  subst hactor
  exact hact actor

/-- Every route is local to the organization that the request names. -/
theorem local_answerRoute {r : Request} {route : Route}
    (hroute : Route.find r.method.toUpper (partsOf r.target) = .route route)
    (hr : r.org = some org) :
    Local org (Session.Admits r.chosen?) (fun _ => True) (answerRoute r route) := by
  -- Only the route that creates definitions chooses an id; all others need no condition on ids.
  cases route with
  | createDefinition =>
    refine local_asActor hr (fun actor hactor => local_withPayload (fun payload hpayload => ?_)
      fun _ _ => trivial) fun _ _ => trivial
    subst hactor
    have hchosen : r.chosen? = DefinitionDraft.chosen? payload := by
      rw [Request.chosen?, hroute, hpayload]
    rw [hchosen]
    exact local_permitted (local_createDefinition payload) fun _ _ => trivial
  | health => exact .mono (.pure _) fun _ _ => trivial
  | engineHealth => exact Confined.admits confined_engineHealth _
  | showTask id =>
    exact admits_asActor hr fun actor => confined_permitted <|
      .andThen (.find? id) fun _ => local_present _ fun _ => .pure _
  | changeTask id =>
    exact admits_asActor hr fun actor => confined_withPayload fun given => confined_permitted <|
      confined_operate id _
  | claimTask id =>
    exact admits_asActor hr fun actor => confined_permitted <| confined_operate id _
  | setStatus id =>
    exact admits_asActor hr fun actor => confined_withPayload fun status => confined_permitted <|
      confined_operate id _
  | conclude decision id =>
    exact admits_asActor hr fun actor => confined_withPayload fun comment => confined_permitted <|
      confined_operate id _
  | compileDraft =>
    exact admits_asActor hr fun actor => confined_withPayload fun payload => confined_permitted <|
      .map _ (.lift _)
  | compileKept id =>
    exact admits_asActor hr fun actor => confined_permitted <| confined_compileKept id
  | trigger =>
    exact admits_asActor hr fun actor => confined_withPayload fun start => confined_permitted <|
      .andThen Trigger.confined_trigger fun _ => .pure _
  | showContact id =>
    exact admits_asActor hr fun actor => confined_permitted <| confined_showContact id
  | changeContact id =>
    exact admits_asActor hr fun actor => confined_withPayload fun payload => confined_permitted <|
      confined_changeContact id payload
  | showSenders =>
    exact admits_asActor hr fun actor => confined_permitted <| .map _ confined_sendersOf
  | changeSenders =>
    exact admits_asActor hr fun actor => confined_withPayload fun submitted =>
      confined_permitted <| .map _ (confined_setSenders submitted)

/-- Finding out who asks changes nothing. -/
theorem unchanged_actorOf (r : Request) (s : Session) : (result (actorOf r) s).2 = s := by
  unfold actorOf
  split
  case h_1 | h_2 => rfl
  case h_3 =>
    show (result (some <$> liftFault _) s).2 = s
    rw [result_map]
    rfl

/-- A definition whose id is in use is refused in the same way whatever else the store holds. -/
theorem agree_createDefinition {actor : AccessContext} {payload : Fields} {id : String}
    (hid : id ∈ DefinitionDraft.chosen? payload) {s s' : Session} (hview : s.view org = s'.view org)
    (hs : id ∈ s.working.ids .definition) (hs' : id ∈ s'.working.ids .definition) :
    Agree org (createDefinition actor payload) s s' := by
  -- Compiling says whether the definition is in order and leaves the state alone.
  have hunchanged : ∀ (x : Except Failure Program) t, (result (discard (lift x)) t).2 = t := by
    intro x t
    show (result ((fun _ => ()) <$> lift x) t).2 = t
    rw [result_map]
    rfl
  have hcompiles : ∀ x : Except Failure Program,
      Local org (fun _ => True) (fun _ => True) (discard (lift x)) := fun x => .discard (.lift x)
  refine .bind ((hcompiles _).agree trivial trivial hview)
    fun _ t t' hleft hright _ => ?_
  obtain rfl : s = t := by rw [← hunchanged _ s, hleft]
  obtain rfl : s' = t' := by rw [← hunchanged _ s', hright]
  -- Both states have the id, though in rows the organization may not see, and both refuse alike.
  obtain ⟨f, hf⟩ := Store.refused_createDefinition actor.org hid s.now
  have hnow : s'.now = s.now := (congrArg Session.now hview).symm
  have hleft := hf s rfl hs
  have hright := hf s' hnow hs'
  refine .bind ?_ fun _ _ _ hkept _ _ => ?_
  · rw [Agree, hleft, hright]
    exact ⟨rfl, hview⟩
  · rw [hleft] at hkept
    cases hkept

/-- A request that submits a definition whose id is in use is answered in the same way whatever else
the store holds. -/
theorem agree_of_used {r : Request} (hr : r.org = some org) {id : String} (hid : id ∈ r.chosen?)
    {s s' : Session} (hview : s.view org = s'.view org) (hs : id ∈ s.working.ids .definition)
    (hs' : id ∈ s'.working.ids .definition) : Agree org (answerMethod r r.method.toUpper) s s' := by
  unfold Request.chosen? at hid
  split at hid
  case h_2 => cases hid
  -- An id is chosen on one route only, so the answer to the request is known.
  case h_1 payload hroute hpayload =>
    have hanswer : answerMethod r r.method.toUpper = asActor r fun actor =>
        permitted actor .writeDefinitions (createDefinition actor payload) := by
      unfold answerMethod
      rw [hroute]
      simp only [answerRoute, hpayload, withPayload]
    rw [hanswer]
    have hasks : Local org (fun _ => True) (fun _ => True) (actorOf r) := local_actorOf hr
    refine .bind (hasks.agree trivial trivial hview)
      fun found t t' hleft hright _ => ?_
    -- Finding the actor leaves both states as they were.
    obtain rfl : s = t := by rw [← unchanged_actorOf r s, hleft]
    obtain rfl : s' = t' := by rw [← unchanged_actorOf r s', hright]
    cases found with
    | none => exact ⟨rfl, hview⟩
    | some actor =>
      show Agree org (permitted actor _ _) s s'
      unfold permitted
      split
      · exact agree_createDefinition hid hview hs hs'
      · exact ⟨rfl, hview⟩

/-- A request is answered in the same way on stores of which the organization that it names sees the
same, if the id that it chooses, if any, is in use in both or in neither. -/
theorem agree_answerMethod {r : Request} (hr : r.org = some org) {s s' : Session}
    (hs : s.Unused) (hs' : s'.Unused) (hview : s.view org = s'.view org)
    (hchosen : ∀ id ∈ r.chosen?, id ∈ s.working.ids .definition ↔ id ∈ s'.working.ids .definition) :
    Agree org (answerMethod r r.method.toUpper) s s' := by
  by_cases hused : ∃ id ∈ r.chosen?, id ∈ s.working.ids .definition
  case pos =>
    obtain ⟨id, hid, hmem⟩ := hused
    exact agree_of_used hr hid hview hmem ((hchosen id hid).1 hmem)
  case neg =>
    have hleft : s.Admits r.chosen? := ⟨hs, fun id hid hmem => hused ⟨id, hid, hmem⟩⟩
    have hright : s'.Admits r.chosen? :=
      ⟨hs', fun id hid hmem => hused ⟨id, hid, (hchosen id hid).2 hmem⟩⟩
    unfold answerMethod
    split
    case h_1 route hroute => exact (local_answerRoute hroute hr).agree hleft hright hview
    case h_2 | h_3 | h_4 => exact ⟨rfl, hview⟩

/-- Organizations do not observe each other, but for the ids of definitions. Stores of which an
organization sees the same answer each of its requests in the same way, and what it sees of them
afterwards is the same; if the request chooses the id of a definition, the id is in use in both or
in neither. -/
theorem answer_isolated (r : Request) (s s' : Session) (hr : r.org = some org)
    (hs : s.Unused) (hs' : s'.Unused) (hview : s.view org = s'.view org)
    (hchosen : ∀ id ∈ r.chosen?, id ∈ s.working.ids .definition ↔ id ∈ s'.working.ids .definition) :
    (answer r s).1 = (answer r s').1 ∧ (answer r s).2.view org = (answer r s').2.view org := by
  have hact : Agree org (do
      let response := (← answerMethod r r.method.toUpper).written
      if response.status == 500 then throw .unpresentable else pure response) s s' := by
    refine (agree_answerMethod hr hs hs' hview hchosen).bind fun response t t' _ _ hviews => ?_
    dsimp only
    split <;> exact ⟨rfl, hviews⟩
  have hagree := hact.transact
  refine ⟨?_, hagree.2⟩
  unfold answer
  dsimp only at hagree ⊢
  rw [hagree.1]

/-- The submission of a definition that chooses its id. -/
def submission (org id : String) : Request where
  method := "POST"
  target := "/api/v2/workflow-definitions"
  user := some "ann"
  org := some org
  role := some "org:admin"
  body := .obj [("id", .text id), ("name", .text "Case"),
    ("statuses", .list [.obj [("id", .text "open"), ("label", .text "Open"), ("order", .nat 1)]])]

/-- A store to which nobody has submitted anything. -/
def nothingKept : Session := Store.opened ⟨⟨2024, 5, 17⟩, 12, 0, 0, 0, none⟩

/-- A store to which one organization has submitted a definition. -/
def keptElsewhere (id : String) : Session := (answer (submission "org_2" id) nothingKept).2

/-- It makes no difference that another organization has a definition with another id. -/
theorem answer_isolated_submission :
    (keptElsewhere "other").working.ids .definition = ["other"] ∧
      (answer (submission "org_1" "case") nothingKept).1 =
        (answer (submission "org_1" "case") (keptElsewhere "other")).1 ∧
      (answer (submission "org_1" "case") nothingKept).2.view "org_1" =
        (answer (submission "org_1" "case") (keptElsewhere "other")).2.view "org_1" := by
  have hview : nothingKept.view "org_1" = (keptElsewhere "other").view "org_1" := by
    with_unfolding_all exact rfl
  have hkept : (keptElsewhere "other").working.ids .definition = ["other"] := by
    with_unfolding_all exact rfl
  have hchosen : (submission "org_1" "case").chosen? = some "case" := by
    with_unfolding_all exact rfl
  refine ⟨hkept, answer_isolated (submission "org_1" "case") nothingKept (keptElsewhere "other") rfl
    (.of_plain ?_) (.of_plain ?_) hview ?_⟩
  · intro kind
    cases kind <;> with_unfolding_all decide
  · intro kind
    cases kind <;> with_unfolding_all decide
  · rw [hchosen, hkept]
    with_unfolding_all decide

/-- An organization can notice that another one has a definition with the id that it chooses. -/
theorem not_answer_isolated :
    ¬ ∀ (org : String) (r : Request) (s s' : Session), r.org = some org → s.Unused → s'.Unused →
      s.view org = s'.view org →
      (answer r s).1 = (answer r s').1 ∧ (answer r s).2.view org = (answer r s').2.view org := by
  intro h
  have hview : nothingKept.view "org_1" = (keptElsewhere "case").view "org_1" := by
    with_unfolding_all exact rfl
  have hsame := (h "org_1" (submission "org_1" "case") nothingKept (keptElsewhere "case") rfl
    (.of_plain fun kind => by cases kind <;> with_unfolding_all decide)
    (.of_plain fun kind => by cases kind <;> with_unfolding_all decide) hview).1
  have hkept : (answer (submission "org_1" "case") nothingKept).1.status = 201 := by
    with_unfolding_all exact rfl
  have hrefused : (answer (submission "org_1" "case") (keptElsewhere "case")).1.status = 500 := by
    with_unfolding_all exact rfl
  rw [hsame, hrefused] at hkept
  exact absurd hkept (by decide)

end Service
end Web
end Casework
