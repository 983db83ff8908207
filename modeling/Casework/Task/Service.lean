/-
  Casework.Task.Service

  Operations on tasks carried out in a session. Signals, notices and entries of the audit trail may
  be cut off; operations go on without them.
-/
import Casework.Audit.Store
import Casework.Execution.Store
import Casework.Notice.Sending
import Casework.Task.Lifecycle
import Casework.Task.Store

namespace Casework.Task

/-- Which of the things outside an operation reaches. -/
structure Reach where
  signals : Bool := true
  notices : Bool := true
  audit : Bool := true
  deriving DecidableEq, Repr

/-- Answers a request of an operation on a task by an actor. -/
def answer (reach : Reach) (id : String) (actor : AccessContext) : (r : Request) → Tx r.Answer
  | .read => Store.task? id actor.org
  | .isThere => Option.isSome <$> Store.task? id actor.org
  | .write w => Store.writeTask w id actor.org
  | .update given => Store.updateTask id actor.org given
  | .commit => Store.commit
  | .execution execution => Except.ok <$> Store.execution? execution actor.org
  | .signal workflow s => do
    if reach.signals then
      let result ← Store.ask fun engine => engine.send workflow s
      pure result.isOk
    else pure false
  | .tell user title => do
    if reach.notices then
      tryCatch (Store.tellAssigned (.text actor.org) user id title (some actor.user))
        fun _ => pure ()
  | .log action details => do
    if reach.audit then Store.record actor.org (some actor.user) "task" id action details

/-- Carries out an operation on a task by an actor. -/
def perform (id : String) (actor : AccessContext) (p : Dialogue Transition) : Tx Transition :=
  p.run (answer {} id actor)

/-- What an operation led to, as it is shown. -/
def Transition.shown (t : Transition) : Except Failure Fields :=
  if t.showable then .ok t.task.shown else .error .unpresentable

end Casework.Task
