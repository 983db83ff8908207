/-
  Casework.Proofs.Task.Turns

  Many operations on tasks at once. Each operation is at some point of its dialogue; whose turn it
  is has one request answered, which is one step of the store. Between two turns new operations can
  arrive, runs can create tasks, time can pass, and the engine can come into trouble or out of it.
-/
import Casework.Run.Activities
import Casework.Task.Service

namespace Casework.Task

/-- What people ask for. -/
inductive Operation where
  | claim
  | mutate (given : Fields)
  | setStatus (status : Json)
  | conclude (decision : Lifecycle.Decision) (comment : Json)

/-- An operation on a task: by whom, and which of the things outside it reaches. -/
structure Order where
  task : String
  actor : AccessContext
  reach : Reach
  operation : Operation

namespace Order

/-- What an order has to ask for. -/
def dialogue (o : Order) : Dialogue Transition :=
  match o.operation with
  | .claim => Lifecycle.claim o.actor
  | .mutate given => Lifecycle.mutate o.actor given
  | .setStatus status => Lifecycle.setStatus o.actor o.task status
  | .conclude decision comment => Lifecycle.conclude decision o.actor o.task comment

/-- The answer to a request of an order, as a transaction of its own. -/
def answer (o : Order) (r : Request) (s : Session) : Except Failure r.Answer × Session :=
  Store.transact (Task.answer o.reach o.task o.actor r) s

end Order

/-- A request that was answered. -/
structure Exchange where
  request : Request
  answer : Except Failure request.Answer

/-- What an operation asks for and is answered, in the order of time. -/
abbrev Dialogue.Log := List Exchange

/-- How an operation goes on after an answer. -/
def Dialogue.resume {α β : Type} (next : α → Dialogue β) : Except Failure α → Dialogue β
  | .ok a => next a
  | .error f => .fail f

/-- How an operation ended, if it has. -/
def Dialogue.result? {α : Type} : Dialogue α → Option (Except Failure α)
  | .done a => some (.ok a)
  | .fail f => some (.error f)
  | .ask _ _ => none

/-- An order and what is left of its dialogue. -/
structure Party where
  order : Order
  rest : Dialogue Transition

/-- What can happen next. -/
inductive Move where
  /-- A new operation arrives. -/
  | arrive (order : Order)
  /-- An operation has its next request answered. -/
  | turn (index : Nat)
  /-- Time passes. -/
  | tick (now : Moment)
  /-- What fails at the engine changes. -/
  | disturb (trouble : EngineTrouble)
  /-- A run creates a task. -/
  | create (params : Fields)

/-- The store and the engine, all operations, and what was asked for by which of them. -/
structure Office where
  session : Session
  parties : List Party
  history : List (Nat × Exchange)

namespace Office

/-- Nobody has asked for anything yet. A new session sees what is committed. -/
def opened (s : Session) : Office := ⟨{ s with working := s.committed }, [], []⟩

/-- An operation has its next request answered. -/
def turn (f : Office) (index : Nat) : Office :=
  match f.parties[index]? with
  | some ⟨order, .ask r next⟩ =>
    { session := (order.answer r f.session).2
      parties := f.parties.set index ⟨order, .resume next (order.answer r f.session).1⟩
      history := f.history ++ [(index, ⟨r, (order.answer r f.session).1⟩)] }
  | _ => f

/-- What happens. -/
def move (f : Office) : Move → Office
  | .arrive order => { f with parties := f.parties ++ [⟨order, order.dialogue⟩] }
  | .turn index => f.turn index
  | .tick now => { f with session := { f.session with now } }
  | .disturb trouble =>
    { f with session := { f.session with engine := { f.session.engine with trouble } } }
  | .create params =>
    { f with session := (Store.transact (Activities.createTask params) f.session).2 }

/-- Everything that happens, one after the other. -/
def play (f : Office) (moves : List Move) : Office := moves.foldl move f

/-- What one operation asked for. -/
def log (f : Office) (index : Nat) : Dialogue.Log :=
  f.history.filterMap fun entry => if entry.1 = index then some entry.2 else none

/-- A run creates an approval. -/
def creating (execution : Json) : Move :=
  .create ⟨[("org_id", .text "org"), ("workflow_execution_id", execution),
    ("config", .obj [("taskType", .text approval)])]⟩

/-- An order of an administrator to decide a task. -/
def deciding (user task : String) (decision : Lifecycle.Decision) : Order where
  task := task
  actor := { user, org := "org", role := none, roles := [], admin := true }
  reach := {}
  operation := .conclude decision .null

/-- An empty store at some noon. -/
def emptyStore : Session := Store.opened ⟨⟨2024, 5, 17⟩, 12, 0, 0, 0, none⟩

/-- Two people decide a new approval. Both look at it while it is open, and who came later writes
first. -/
def rivals : List Move := [
  creating .null,
  .arrive (deciding "ann" "task-1" .approve), .arrive (deciding "bob" "task-1" .reject),
  .turn 0, .turn 1, .turn 1, .turn 0, .turn 0]

end Office
end Casework.Task
