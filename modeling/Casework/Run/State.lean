/-
  Casework.Run.State

  The state of a run and what it asks of the world outside: work to be done, and messages while it
  waits. Everything asked is kept in the history of the run.
-/
import Casework.Failure
import Casework.Program.Variables
import Casework.Run.Inbox

namespace Casework

/-- The kinds of work that a run asks for. -/
inductive Activity where
  | createTask
  | setState
  | sendMail
  | notify
  deriving DecidableEq, Repr

/-- The name of a kind of work. -/
def Activity.word : Activity → String
  | .createTask => "create_task_activity"
  | .setState => "set_execution_state_activity"
  | .sendMail => "send_email_activity"
  | .notify => "notify_activity"

/-- Work that a run asks for. -/
structure Call where
  activity : Activity
  params : Fields
  deriving Repr

/-- How far a run is. -/
inductive RunPhase where
  | running
  | completed
  | timeout
  | error
  deriving DecidableEq, Repr

/-- The word for a phase. -/
def RunPhase.word : RunPhase → String
  | .running => "running"
  | .completed => "completed"
  | .timeout => "timeout"
  | .error => "error"

/-- How a wait ended. -/
inductive WaitResult where
  /-- What was waited for had happened before. -/
  | immediate
  | signaled
  | timeout
  deriving DecidableEq, Repr

/-- The word for the end of a wait. -/
def WaitResult.word : WaitResult → String
  | .immediate => "immediate"
  | .signaled => "signaled"
  | .timeout => "timeout"

/-- What a run shows of itself. -/
structure Snapshot where
  step : Json
  phase : RunPhase
  stepsRun : Nat
  inbox : Inbox

/-- The snapshot as a document. -/
def Snapshot.toJson (s : Snapshot) : Except Fault Fields := do
  let completed ← s.inbox.completedInOrder
  pure ⟨[
    ("current_step_id", s.step), ("execution_state", .text s.phase.word),
    ("steps_run", .nat s.stepsRun), ("completed_tasks", .list (completed.map Key.toJson))]⟩

/-- What happened in a run. -/
inductive Event where
  /-- Work was asked for, and failed or not. -/
  | called (call : Call) (failure : Option Failure)
  /-- The run waited. -/
  | waited (seconds : Int) (result : WaitResult) (after : Option Snapshot)
  /-- The run waited until a message at fault broke the wait off. -/
  | interrupted (seconds : Int)

/-- The world outside of a run: it does work, and sends messages while the run waits, for its work
or for a message. -/
structure World (σ : Type) where
  perform : Call → σ → Except Failure Json × σ
  deliver : σ → List Signal × σ
  /-- The messages that come in while work is done, none unless it is said otherwise. -/
  arrive : σ → List Signal × σ := fun outside => ([], outside)

/-- The state of a run in a world. -/
structure RunState (σ : Type) where
  outside : σ
  inbox : Inbox
  taskKinds : Table Json
  vars : Variables
  step : Json
  phase : RunPhase
  stepsRun : Nat
  history : List Event

namespace RunState

variable {σ : Type}

/-- The state of a run that has not begun. -/
def fresh (outside : σ) : RunState σ where
  outside
  inbox := .empty
  taskKinds := []
  vars := .empty
  step := .null
  phase := .running
  stepsRun := 0
  history := []

/-- The state after something happened. -/
def note (s : RunState σ) (event : Event) : RunState σ :=
  { s with history := s.history ++ [event] }

/-- What the run shows of itself, its variables apart. -/
def snapshot (s : RunState σ) : Snapshot := ⟨s.step, s.phase, s.stepsRun, s.inbox⟩

/-- What the run shows of itself. -/
def toJson (s : RunState σ) : Except Fault Json :=
  (fun fields => .object (fields.put "variables" (.object s.vars))) <$> s.snapshot.toJson

end RunState
end Casework
