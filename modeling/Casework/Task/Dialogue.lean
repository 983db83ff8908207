/-
  Casework.Task.Dialogue

  Operations on a task as trees of requests. An operation asks for one thing at a time (a look at
  the task, a conditional write, a message) and goes on with the answer, so that several operations
  can take turns between any two requests. `Dialogue.run` has all requests answered in a row.
-/
import Casework.Execution.Basic
import Casework.Task.Basic

namespace Casework.Task

/-- What an operation on a task asks for. -/
inductive Request where
  /-- The task as it is. -/
  | read
  /-- Whether the task is there. -/
  | isThere
  /-- A conditional write; the task afterwards, if the write applied. -/
  | write (w : Write)
  /-- New values of fields; the changed task, if it is there. -/
  | update (given : Fields)
  /-- That all changes are kept. -/
  | commit
  /-- The execution with an id. -/
  | execution (id : String)
  /-- That a message is sent to a run; whether it was. -/
  | signal (workflow : String) (s : Signal)
  /-- That a user is told about being given a task of this title. -/
  | tell (user : Json) (title : String)
  /-- An entry of the audit trail. -/
  | log (action : String) (details : Json)

/-- What a request is answered with. -/
abbrev Request.Answer : Request → Type
  | .read | .write _ | .update _ => Option Task
  | .isThere | .signal _ _ => Bool
  | .execution _ => Except Failure (Option Execution)
  | .commit | .tell _ _ | .log _ _ => Unit

/-- An operation on a task. -/
inductive Dialogue (α : Type) where
  | done (value : α)
  | fail (failure : Failure)
  | ask (request : Request) (next : request.Answer → Dialogue α)

namespace Dialogue

variable {α β : Type}

/-- An operation followed by another one. -/
def bind : Dialogue α → (α → Dialogue β) → Dialogue β
  | .done a, f => f a
  | .fail e, _ => .fail e
  | .ask r next, f => .ask r fun answer => (next answer).bind f

instance : Monad Dialogue where
  pure := .done
  bind := bind

/-- One request. -/
def request (r : Request) : Dialogue r.Answer := .ask r .done

/-- Fails unless a condition holds. -/
def require (condition : Bool) (failure : Failure) : Dialogue Unit :=
  if condition then .done () else .fail failure

/-- A result that may be a failure. -/
def lift : Except Failure α → Dialogue α
  | .ok a => .done a
  | .error e => .fail e

/-- An operation with all its requests answered in a row. -/
def run {m : Type → Type} [Monad m] [MonadExceptOf Failure m]
    (answer : (r : Request) → m r.Answer) :
    Dialogue α → m α
  | .done a => pure a
  | .fail e => throw e
  | .ask r next => do (next (← answer r)).run answer

end Dialogue
end Casework.Task
