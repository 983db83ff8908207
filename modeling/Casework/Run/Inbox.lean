/-
  Casework.Run.Inbox

  What a run has been told from outside: which tasks are completed, and which decisions were
  submitted. A decision that names no task belongs to the task that was completed last.
-/
import Casework.Json.Key

namespace Casework

/-- A message to a run. -/
inductive Signal where
  | taskCompleted (payload : Json)
  | approvalSubmitted (payload : Json)
  deriving Repr

namespace Signal

/-- The name of a message. -/
def name : Signal → String
  | .taskCompleted _ => "taskCompleted"
  | .approvalSubmitted _ => "approvalSubmitted"

/-- What a message carries. -/
def payload : Signal → Json
  | .taskCompleted payload | .approvalSubmitted payload => payload

/-- The message that a task is completed. -/
def completed (task user : String) : Signal :=
  .taskCompleted (.obj [("taskId", .text task), ("completedBy", .text user)])

/-- The message that a decision was made. -/
def decided (outcome : String) (comment : Option String) (user : String) : Signal :=
  .approvalSubmitted <| .obj [
    ("outcome", .text outcome), ("comment", .optText comment), ("approvedBy", .text user)]

end Signal

/-- The longest duration, in days. -/
def longestDays : Int := 999999999

/-- A count of days, if a duration can be so long. -/
def durationDays (days : Int) : Except Fault Int :=
  if days < -2147483648 || 2147483647 < days then .error .countTooLarge
  else if days < -longestDays || longestDays < days then .error (.durationTooLong days)
  else .ok days

/-- What a run has been told. -/
structure Inbox where
  completed : List Key
  last : Option Key
  approvals : Table Fields
  deriving Repr

namespace Inbox

/-- Nothing told. -/
def empty : Inbox := ⟨[], none, []⟩

/-- Whether a task is known to be completed. -/
def hasCompleted (inbox : Inbox) (task : Key) : Bool := inbox.completed.any task.same

/-- The decision about a task. -/
def approval? (inbox : Inbox) (task : Key) : Option Fields := inbox.approvals.get? task

/-- The inbox after the message that a task is completed. -/
def complete (inbox : Inbox) (task : Key) : Inbox :=
  { inbox with
    completed := if inbox.hasCompleted task then inbox.completed else inbox.completed ++ [task]
    last := some task }

/-- The inbox after a decision about a task. -/
def record (inbox : Inbox) (task : Key) (payload : Fields) : Inbox :=
  { inbox with approvals := inbox.approvals.put task payload }

/-- The key of a document that counts as given. -/
def givenKey (j : Json) : Except Fault (Option Key) :=
  if j.truthy then some <$> j.key else .ok none

/-- The inbox after a message. -/
def receive (inbox : Inbox) : Signal → Except Fault Inbox
  | .taskCompleted payload => do
    let fields ← payload.givenFields "get"
    match ← givenKey (fields.value "taskId") with
    | some task => pure (inbox.complete task)
    | none => pure inbox
  | .approvalSubmitted payload => do
    let fields ← payload.mappingOf
    match ← givenKey (fields.value "taskId") with
    | some task => pure (inbox.record task fields)
    | none =>
      match inbox.last with
      | some task => pure (inbox.record task fields)
      | none => pure inbox

/-- The inbox after several messages, up to the first one at fault. -/
def receiveAll (inbox : Inbox) : List Signal → Inbox × Except Fault Unit
  | [] => (inbox, .ok ())
  | signal :: rest =>
    match inbox.receive signal with
    | .ok inbox => inbox.receiveAll rest
    | .error fault => (inbox, .error fault)

/-- Whether the first key comes before the second one: texts by their characters, numbers by their
values. Other keys have no order. -/
def before? (a b : Key) : Option Bool :=
  match a, b with
  | .text s, .text t => some (decide (s < t))
  | a, b =>
    match a.number?, b.number? with
    | some m, some n => some (m.lt n)
    | _, _ => none

/-- The completed tasks in order. -/
def completedInOrder (inbox : Inbox) : Except Fault (List Key) :=
  let keys := inbox.completed
  if keys.all fun a => keys.all fun b => (before? a b).isSome then
    .ok (keys.mergeSort fun a b => !((before? b a).getD false))
  else if keys.length ≤ 1 then .ok keys
  else .error .badArguments

end Inbox
end Casework
