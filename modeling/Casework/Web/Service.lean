/-
  Casework.Web.Service

  Answering requests. Who asks is found out first, then the payload is read, then the route decides.
  Each request has a session of its own: what it changed is kept if it succeeds and dropped if it
  fails.
-/
import Casework.Access.Permission
import Casework.Execution.Trigger
import Casework.Task.Service
import Casework.Web.Payload
import Casework.Web.Response
import Casework.Web.Route

namespace Casework.Web

/-- A request. -/
structure Request where
  method : String
  target : String
  user : Option String
  org : Option String
  role : Option String
  /-- What the request carries; null for nothing. -/
  body : Json

namespace Request

/-- Whether every character is a plain one. -/
def isPlain (s : Option String) : Bool := (s.getD "").toList.all fun c => c.toNat < 0x80

/-- Why a request cannot be sent, if it cannot. -/
def fault? (r : Request) : Option RequestFault :=
  if r.target.toList.any isControl then some .path
  else if !(isPlain r.user && isPlain r.org && isPlain r.role) then some .header
  else if !Response.isFinite r.body then some .body
  else none

end Request

namespace Service

/-! ## Who asks -/

/-- The context of a user who declares a role, if any, and may be a member of the organization. -/
def contextOf (user org : String) (declared : Option String) (member : Option Membership) :
    Except Fault AccessContext := do
  let kept := member.bind Membership.role
  let declared := match declared with
    | none | some "" => kept
    | role => role
  let further ← match member with
    | some m => m.roles.givenItemsOf
    | none => pure []
  let roles ← Role.setOfJson (further ++ (kept.filter (· != "")).toList.map .text)
  pure (AccessContext.ofSet user org declared false roles)

/-- Who asks; nobody, if the user or the organization is not named. -/
def actorOf (r : Request) : Tx (Option AccessContext) := do
  match r.user.getD "", r.org.getD "" with
  | "", _ | _, "" => pure none
  | user, org => do
    let member ← Store.membership? org user
    some <$> Store.liftFault (contextOf user org r.role member)

/-! ## Answers -/

/-- The answer of what is done with a payload, or the violations in it. -/
def withPayload {α : Type} (payload : Payload α) (act : α → Tx Response) : Tx Response :=
  match payload with
  | .ok value => act value
  | .error violations => pure (.problem 422 (.list violations))

/-- The answer of what is done by an actor who has a permission. -/
def permitted (actor : AccessContext) (p : Permission) (act : Tx Response) : Tx Response :=
  if Role.may actor.role p then act
  else pure (.problem 403 (.text ("Missing permission: " ++ p.word)))

/-- The answer about something that may be missing. -/
def present {α : Type} (name : String) (shown : α → Tx Response) : Option α → Tx Response
  | some value => shown value
  | none => pure (.problem 404 (.text (name ++ " not found")))

/-- The answer that shows a program. -/
def programAnswer (p : Program) : Response :=
  .ok (.obj [("steps", p.toJson), ("step_count", .nat p.length)])

/-! ## Tasks -/

/-- Shows a task. -/
def showTask (actor : AccessContext) (id : String) : Tx Response := do
  present "Task" (fun t => pure (.ok (.object t.shown))) (← Store.task? id actor.org)

/-- Carries out an operation on a task. -/
def operate (actor : AccessContext) (id : String) (p : Task.Dialogue Task.Transition) :
    Tx Response := do
  let transition ← Store.holding (Task.perform id actor p)
  let task ← Store.lift transition.shown
  pure (.ok (.obj [("task", .object task), ("workflow_signaled", .bool transition.signaled)]))

/-! ## Contacts -/

/-- The fields of contacts that an actor can read and write. -/
def fieldAccess (actor : AccessContext) : Tx FieldAccess := do
  pure (FieldAccess.resolve (actor.role.toList ++ actor.roles) (← Store.policiesOf actor.org))

/-- Shows a contact, as far as the actor can read it. -/
def showContact (actor : AccessContext) (id : String) : Tx Response := do
  match ← Store.contact? id actor.org with
  | none => present "Contact" pure none
  | some contact => pure (.ok (.object ((← fieldAccess actor).redact contact.shown)))

/-- Changes a contact, unless a field is none of contacts or one that the actor cannot write. -/
def changeContact (actor : AccessContext) (id : String) (payload : Fields) : Tx Response := do
  let unknown := payload.sortedNames.filter fun name => !contactFields.contains name
  if !unknown.isEmpty then
    pure (.problem 400 (.text ("Unsupported contact field(s): " ++ ", ".intercalate unknown)))
  else
    let access ← fieldAccess actor
    let forbidden := access.forbidden payload
    if !forbidden.isEmpty then
      pure (.problem 403 (.obj [("error", .text "Forbidden contact field(s)"),
        ("fields", .texts forbidden)]))
    else
      match ← Store.updateContact id actor.org payload with
      | none => present "Contact" pure none
      | some shown =>
        Store.holding <| Store.record actor.org (some actor.user) "contact" id "updated" <| .obj [
          ("fields", .texts payload.sortedNames)]
        pure (.ok (.object (access.redact shown)))

/-! ## Definitions and executions -/

/-- Keeps a definition that compiles. -/
def createDefinition (actor : AccessContext) (payload : Fields) : Tx Response := do
  discard <| Store.lift (Trigger.compiled (compile (.object payload)))
  let (draft, record) ← Store.createDefinition (.text actor.org) payload
  match draft.id, draft.name with
  | .text id, .text name =>
    pure (.document 201 (.obj [("id", .text id), ("name", .text name),
      ("version", .nat record.version), ("definition", draft.authored record)]))
  | _, _ => throw .unpresentable

/-- Shows the program of a definition that is not kept. -/
def compileDraft (payload : Fields) : Tx Response :=
  programAnswer <$> Store.lift (Trigger.compiled (compile (.object payload)))

/-- Shows the program of a kept definition. -/
def compileKept (actor : AccessContext) (id : String) : Tx Response := do
  present "Workflow definition"
    (fun d => programAnswer <$> Store.lift (Trigger.compiled (compile d.authored)))
    (← Store.definition? id actor.org)

/-- Starts an execution. -/
def trigger (actor : AccessContext) (definition : String) (contact : Option String) :
    Tx Response := do
  let execution ← Trigger.trigger definition actor contact
  pure (.document 201 (.obj [("workflow_execution_id", .text execution.id),
    ("temporal_workflow_id", .optText execution.workflow), ("status", .text execution.status),
    ("execution", .object execution.shown)]))

/-! ## Settings -/

/-- The answer that shows the addresses of an organization. -/
def sendersAnswer (addresses : List String) : Response :=
  .ok (.obj [("allowed_from_emails", .texts addresses)])

/-! ## Health -/

/-- Whether the engine can be reached. -/
def engineHealth : Tx Response := do
  let result ← Store.ask fun engine =>
    let engine := engine.connect
    (if engine.connected then .ok () else .error Engine.disconnected, engine)
  match result with
  | .ok () => pure (.ok (.obj [("status", .text "ok"), ("address", .text Engine.address)]))
  | .error error => pure (.document 503 (.obj [("status", .text "unavailable"),
      ("address", .text Engine.address), ("error", .text error)]))

/-! ## Routes -/

/-- The answer of what is done for the one who asks, who must be known. -/
def asActor (r : Request) (act : AccessContext → Tx Response) : Tx Response := do
  match ← actorOf r with
  | none => pure (.problem 401 (.text "Unauthorized"))
  | some actor => act actor

/-- The answer to a request for something. -/
def answerRoute (r : Request) : Route → Tx Response
  | .showTask id => asActor r fun actor =>
    permitted actor .readTasks (showTask actor id)
  | .changeTask id => asActor r fun actor => withPayload (Payload.object r.body) fun given =>
    permitted actor .writeTasks (operate actor id (Task.Lifecycle.mutate actor given))
  | .claimTask id => asActor r fun actor =>
    permitted actor .claimTasks (operate actor id (Task.Lifecycle.claim actor))
  | .setStatus id => asActor r fun actor => withPayload (Payload.status r.body) fun status =>
    permitted actor .writeTasks
      (operate actor id (Task.Lifecycle.setStatus actor id (.text status)))
  | .conclude decision id => asActor r fun actor =>
    withPayload (Payload.comment r.body) fun comment =>
      permitted actor .writeTasks
        (operate actor id (Task.Lifecycle.conclude decision actor id comment))
  | .createDefinition => asActor r fun actor =>
    withPayload (Payload.object r.body) fun payload =>
      permitted actor .writeDefinitions (createDefinition actor payload)
  | .compileDraft => asActor r fun actor => withPayload (Payload.object r.body) fun payload =>
    permitted actor .readDefinitions (compileDraft payload)
  | .compileKept id => asActor r fun actor =>
    permitted actor .readDefinitions (compileKept actor id)
  | .trigger => asActor r fun actor =>
    withPayload (Payload.start r.body) fun (definition, contact) =>
      permitted actor .triggerWorkflows (trigger actor definition contact)
  | .showContact id => asActor r fun actor =>
    permitted actor .readContacts (showContact actor id)
  | .changeContact id => asActor r fun actor => withPayload (Payload.object r.body) fun payload =>
    permitted actor .writeContacts (changeContact actor id payload)
  | .showSenders => asActor r fun actor =>
    permitted actor .administer (sendersAnswer <$> Store.sendersOf (.text actor.org))
  | .changeSenders => asActor r fun actor =>
    withPayload (Payload.addresses r.body) fun submitted =>
      permitted actor .administer (sendersAnswer <$> Store.setSenders actor.org submitted)
  | .health => pure (.ok (.obj [("status", .text "ok")]))
  | .engineHealth => engineHealth

/-- The answer to a request with a method. -/
def answerMethod (r : Request) (method : String) : Tx Response :=
  match Route.find method (partsOf r.target) with
  | .route route => answerRoute r route
  | .otherMethod => pure (.problem 405 (.text "Method Not Allowed"))
  | .elsewhere => pure ⟨307, .plain ""⟩
  | .nothing => pure (.problem 404 (.text "Not Found"))

/-- Answers a request in a session of its own. -/
def answer (r : Request) (s : Session) : Response × Session :=
  let method := r.method.toUpper
  let act : Tx Response := do
    let response := (← answerMethod r method).written
    if response.status == 500 then throw .unpresentable else pure response
  let (result, s) := Store.transact act s
  let response := match result with
    | .ok response => response
    | .error failure => Response.ofFailure failure
  (if method == "HEAD" then response.headOnly else response, s)

end Service
end Casework.Web
