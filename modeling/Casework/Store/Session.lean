/-
  Casework.Store.Session

  Working with the store. A session sees what is committed and its own changes; a commit keeps them,
  a rollback drops them. Ids are handed out by kind and are never handed out twice, even if the
  record is not kept.
-/
import Casework.Execution.Engine
import Casework.Store.Column
import Casework.Store.Records

namespace Casework

/-- The kinds of records to which ids are handed out. -/
inductive RecordKind where
  | task
  | execution
  | definition
  | contact
  | notice
  | audit
  | member
  | policy
  deriving DecidableEq, Repr

/-- What ids of a kind begin with. -/
def RecordKind.word : RecordKind → String
  | .task => "task"
  | .execution => "exec"
  | .definition => "def"
  | .contact => "contact"
  | .notice => "note"
  | .audit => "log"
  | .member => "member"
  | .policy => "policy"

/-- The store and the engine, as one session works with them. -/
structure Session where
  /-- What every session sees. -/
  committed : Records
  /-- What this session sees. -/
  working : Records
  /-- How many ids of a kind were handed out. -/
  ids : RecordKind → Nat
  /-- The present moment. -/
  now : Moment
  engine : Engine
  /-- Whether the store takes no entries of the audit trail. -/
  refusesAudit : Bool

/-- What is done in a session, and can fail. -/
abbrev Tx := ExceptT Failure (StateM Session)

namespace Store

variable {α : Type} {ρ : Type} [Record ρ]

/-- An empty store at a moment, with an engine that is idle. -/
def opened (now : Moment) : Session :=
  ⟨{}, {}, fun _ => 0, now, .idle, false⟩

/-- A result that may be a failure. -/
def lift (result : Except Failure α) : Tx α := ExceptT.mk (pure result)

/-- A result that may be a fault of a document. -/
def liftFault (result : Except Fault α) : Tx α := lift (Failure.ofFault result)

/-- A result that the store may refuse. -/
def liftColumn (result : Except StoreFault α) : Tx α := lift (Failure.ofStore result)

/-! ## Transactions -/

/-- Keeps the changes of the session. -/
def commit : Tx Unit := modify fun s => { s with committed := s.working }

/-- Drops the changes of the session. -/
def rollback : Tx Unit := modify fun s => { s with working := s.committed }

/-- What is done in a session of its own: its changes are kept, or dropped if it fails. -/
def transact (act : Tx α) (s : Session) : Except Failure α × Session :=
  match act.run.run s with
  | (.ok a, s) => (.ok a, { s with committed := s.working })
  | (.error f, s) => (.error f, { s with working := s.committed })

/-! ## Reading -/

/-- The present moment. -/
def now : Tx Moment := do return (← get).now

/-- The present moment as the store keeps it. -/
def bareNow : Tx Moment := do return (← get).now.bare

/-- The records that fulfil a condition, in the order of insertion. -/
def select (p : ρ → Bool) : Tx (List ρ) := do return (Record.all (← get).working).filter p

/-- The record with an id in an organization. -/
def find? (id org : String) : Tx (Option ρ) := do
  return (Record.all (← get).working).find? (Record.isOf id org)

/-- The record with an id in an organization, both given as documents. Null is no id. -/
def findBy? (id org : Json) : Tx (Option ρ) := do
  let id ← liftColumn (Column.text id)
  let org ← liftColumn (Column.text org)
  match id, org with
  | some id, some org => find? id org
  | _, _ => pure none

/-- Records with the oldest first; of equal age, in the order of insertion. -/
def oldestFirst {ρ : Type} (created : ρ → Moment) (records : List ρ) : List ρ :=
  records.mergeSort fun a b => (created a).ticks ≤ (created b).ticks

/-- Records with the newest first; of equal age, in the order of insertion. -/
def newestFirst {ρ : Type} (created : ρ → Moment) (records : List ρ) : List ρ :=
  records.mergeSort fun a b => (created b).ticks ≤ (created a).ticks

/-! ## Writing -/

/-- Hands out an id. -/
def freshId (kind : RecordKind) : Tx String := do
  let s ← get
  let n := s.ids kind + 1
  set { s with ids := fun k => if k = kind then n else s.ids k }
  return kind.word ++ "-" ++ toString n

/-- The id that a document gives; one is handed out for null. -/
def identify (kind : RecordKind) (given : Json) : Tx Json :=
  if given.isNull then Json.text <$> freshId kind else pure given

/-- Puts a new record, unless it clashes with another one. -/
def add (r : ρ) : Tx Unit := do
  let s ← get
  if (Record.all s.working).any (Record.clash r) then throw (.store .constraint)
  else set { s with working := Record.replace (Record.all s.working ++ [r]) s.working }

/-- Changes the records that fulfil a condition. -/
def change (p : ρ → Bool) (f : ρ → ρ) : Tx Unit :=
  modify fun s =>
    let changed := (Record.all s.working).map fun r => if p r then f r else r
    { s with working := Record.replace changed s.working }

/-! ## The engine -/

/-- Asks the engine for something. -/
def ask (call : Engine → Except String Unit × Engine) : Tx (Except String Unit) := do
  let s ← get
  let (result, engine) := call s.engine
  set { s with engine }
  return result

end Store
end Casework
