/-
  Casework.Failure

  How an operation fails. Each failure is a cause; the text that is shown or recorded follows from
  it.
-/
import Casework.Definition.Issue
import Casework.Json.Fault

namespace Casework

/-- The state of a task that made a change impossible. -/
structure Conflict where
  message : String
  status : Option String := none
  outcome : Option String := none
  assignee : Option String := none
  deriving DecidableEq, Repr

/-- A conflict as a document; what is not known is left out. -/
def Conflict.toJson (c : Conflict) : Json :=
  .object <|
    (((Entries.mk [("error", Json.text c.message)]).putSome
      "status" (c.status.map .text)).putSome
      "outcome" (c.outcome.map .text)).putSome
      "assignedTo" (c.assignee.map .text)

/-- Why the store refuses a statement. -/
inductive StoreFault where
  /-- A document with parts is no parameter. -/
  | parameter
  /-- What is given as the id of a record is not one value. -/
  | key
  /-- The value is not of the column's type. -/
  | column
  /-- A value that must be there is missing, or one that must differ is there already. -/
  | constraint
  /-- A whole number has no room in a column. -/
  | overflow
  /-- A record that was read before a rollback is no longer at hand, and cannot be read again in
  passing. -/
  | expired
  deriving DecidableEq, Repr

/-- Why a request cannot be sent. -/
inductive RequestFault where
  /-- The path holds a control character. -/
  | path
  /-- A header holds a character beyond the plain ones. -/
  | header
  /-- The body holds a number that is not finite. -/
  | body
  deriving DecidableEq, Repr

/-- Why an operation fails. -/
inductive Failure where
  /-- The input is malformed. -/
  | invalid (message : String)
  /-- The actor lacks the role or the ownership. -/
  | forbidden (message : String)
  /-- There is no such thing in the actor's organization. -/
  | notFound (message : String)
  /-- Another change came first. -/
  | conflict (conflict : Conflict)
  /-- A service outside failed. -/
  | integration (message : String)
  /-- A definition has issues. -/
  | issues (error : CompileError)
  /-- A step of a run cannot be carried out; a final failure is not tried again. -/
  | application (message : String) (final : Bool)
  /-- The work that a run asked for failed. -/
  | activity
  /-- A service outside reported an error. -/
  | service (message : String)
  /-- A document has a part of the wrong form. -/
  | fault (fault : Fault)
  /-- The store refused a statement. -/
  | store (fault : StoreFault)
  /-- A result has a part of the wrong form. -/
  | unpresentable
  /-- A request could not be sent. -/
  | request (fault : RequestFault)
  deriving DecidableEq, Repr

namespace Failure

/-- The text of a failure. -/
def message : Failure → String
  | .invalid m | .forbidden m | .notFound m | .integration m | .application m _ | .service m => m
  | .conflict c => c.message
  | .issues e => e.message
  | .activity => "Activity task failed"
  | .fault f => f.message
  | .store _ => "statement refused"
  | .unpresentable => "result refused"
  | .request _ => "request refused"

/-- A result that may have a fault, as one that may fail. -/
def ofFault {α : Type} : Except Fault α → Except Failure α
  | .ok a => .ok a
  | .error f => .error (.fault f)

/-- A result that the store may refuse, as one that may fail. -/
def ofStore {α : Type} : Except StoreFault α → Except Failure α
  | .ok a => .ok a
  | .error f => .error (.store f)

end Failure

end Casework
