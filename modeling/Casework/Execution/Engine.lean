/-
  Casework.Execution.Engine

  The engine that carries runs, as the service sees it: it is connected to when it is first needed,
  runs are started on it, and messages are sent to them. Each of these can fail. What was sent is
  kept.
-/
import Casework.Run.Inbox

namespace Casework

/-- A call that the engine took. -/
inductive EngineCall where
  | start (params : Json) (workflow : String)
  | signal (signal : Signal) (workflow : String)
  deriving Repr

/-- What fails, by the text of the error. -/
structure EngineTrouble where
  connect : Option String := none
  start : Option String := none
  completed : Option String := none
  approved : Option String := none
  deriving DecidableEq, Repr

/-- The engine. -/
structure Engine where
  trouble : EngineTrouble
  connected : Bool
  sent : List EngineCall
  deriving Repr

namespace Engine

/-- The address of the engine. -/
def address : String := "localhost:7233"

/-- The program that runs stored programs. -/
def program : String := "GenericWorkflow"

/-- Where runs wait to be carried out. -/
def queue : String := "crm-workflow-task-queue"

/-- The text of the error when there is no connection. -/
def disconnected : String := "Temporal is not connected; start the Temporal service first"

/-- An engine without trouble to which there is no connection yet. -/
def idle : Engine := ⟨{}, false, []⟩

/-- The name of the run of an execution. -/
def workflowOf (execution : String) : String := "generic-workflow-" ++ execution

/-- The id of the first try of a run. -/
def firstTry (workflow : String) : String := "run-" ++ workflow

/-- Connects, unless there is a connection. -/
def connect (e : Engine) : Engine := { e with connected := e.connected || e.trouble.connect.isNone }

/-- The text of the error when a message fails. -/
def troubleWith (e : Engine) : Signal → Option String
  | .taskCompleted _ => e.trouble.completed
  | .approvalSubmitted _ => e.trouble.approved

/-- Does a call that has a trouble of its own; the text of the error when it fails. -/
def call (e : Engine) (trouble : Option String) (c : EngineCall) : Except String Unit × Engine :=
  let e := e.connect
  if !e.connected then (.error disconnected, e)
  else match trouble with
    | some text => (.error text, e)
    | none => (.ok (), { e with sent := e.sent ++ [c] })

/-- Starts the run of an execution. -/
def start (e : Engine) (execution : String) (params : Json) : Except String Unit × Engine :=
  e.call e.trouble.start (.start params (workflowOf execution))

/-- Sends a message to a run. -/
def send (e : Engine) (workflow : String) (s : Signal) : Except String Unit × Engine :=
  e.call (e.troubleWith s) (.signal s workflow)

end Engine
end Casework
