/-
  Casework.Access.Store

  Members, policies and addresses in the store.
-/
import Casework.Access.Sender
import Casework.Json.Key
import Casework.Store.Session

namespace Casework

/-- A member that is not yet kept: what the columns are given. -/
structure MemberDraft where
  id : Json := .null
  user : Json
  email : Json := .text ""
  role : Json := .null
  roles : Json := .null

namespace MemberDraft

/-- The member that the store keeps of a draft. -/
def membership (d : MemberDraft) (id org : Json) (moment : Moment) :
    Except StoreFault Membership := do
  let id ← Column.text id
  let org ← Column.text org
  let user ← Column.text d.user
  let email ← Column.text d.email
  let role ← Column.text d.role
  pure {
    id := ← Column.required id
    org := ← Column.required org
    user := ← Column.required user
    email := email.getD ""
    roles := d.roles.orElse (.list [])
    created := moment
    role }

/-- The row of a draft as it was given. -/
def row (d : MemberDraft) (m : Membership) : Fields :=
  ((m.row.put "user_id" d.user).put "email" (if d.email.isNull then .text "" else d.email)).put
    "role" d.role

end MemberDraft

/-- A policy that is not yet kept: what its columns are given. -/
structure PolicyDraft where
  role : Json
  field : Json
  read : Json
  write : Json

namespace PolicyDraft

/-- The policy that the store keeps of a draft. -/
def record (d : PolicyDraft) (id : String) (org : Json) : Except StoreFault PolicyRecord := do
  let read ← Column.flag true d.read
  let write ← Column.flag false d.write
  let org ← Column.text org
  let field ← Column.text d.field
  let role ← Column.text d.role
  pure {
    org := ← Column.required org
    entity := "contact"
    policy := {
      field := ← Column.required field
      role := ← Column.required role
      read, write }
    id }

/-- The row of a draft as it was given. -/
def row (d : PolicyDraft) (p : PolicyRecord) : Fields :=
  let given (value default : Json) : Json := if value.isNull then default else value
  (((p.row.put "field_key" d.field).put "role_key" d.role).put
    "can_read" (given d.read (.bool true))).put "can_write" (given d.write (.bool false))

end PolicyDraft

namespace Store

/-! ## Members -/

/-- Puts a new member. -/
def createMember (org : Json) (d : MemberDraft) : Tx Membership := do
  let id ← identify .member d.id
  let member ← liftColumn (d.membership id org (← bareNow))
  add member
  pure member

/-- The member of an organization with a user id. -/
def membership? (org user : String) : Tx (Option Membership) := do
  return (← select fun m : Membership => m.org == org && m.user == user).head?

/-- The members of an organization, the oldest first. -/
def membersOf (org : Json) : Tx (List Member) := do
  let org ← liftColumn (Column.text org)
  let kept ← oldestFirst Membership.created <$> select fun m => some m.org == org
  liftFault (kept.mapM Membership.member)

/-! ## Policies -/

/-- Puts a new policy for a field of contacts. -/
def createPolicy (org : Json) (d : PolicyDraft) : Tx PolicyRecord := do
  let id ← freshId .policy
  let policy ← liftColumn (d.record id org)
  add policy
  pure policy

/-- Whether the first policy is read no later than the second one: they are kept by field and
role. -/
def policyOrder (a b : FieldPolicy) : Bool :=
  decide (a.field < b.field) || (a.field == b.field && decide (a.role ≤ b.role))

/-- The policies of an organization for the fields of contacts. -/
def policiesOf (org : String) : Tx (List FieldPolicy) := do
  let kept ← select fun p : PolicyRecord => p.org == org && p.entity == "contact"
  pure ((kept.map PolicyRecord.policy).mergeSort policyOrder)

/-! ## Addresses -/

/-- The organization that a document names. A list of one item stands for the item, and so does an
object whose only field is the column. -/
def namedOrg (org : Json) : Except Failure Json := do
  let given ← match org with
    | .list [item] => pure item
    | .object ⟨[("org_id", value)]⟩ => pure value
    | .list _ | .object _ => throw (.store .key)
    | j => pure j
  match given with
  | .list _ | .object _ => throw (.fault (.noKey given.shape))
  | j => pure j

/-- The addresses that are kept for an organization, if any are. -/
def senderList? (org : Json) : Tx (Option SenderList) := do
  match ← liftColumn (Column.text (← lift (namedOrg org))) with
  | none => pure none
  | some org => return (← select fun s : SenderList => s.org == org).head?

/-- The addresses from which an organization sends e-mail. -/
def sendersOf (org : Json) : Tx (List String) := do
  match ← senderList? org with
  | none => pure []
  | some kept => pure (Sender.sanitize kept.addresses)

/-- Keeps submitted addresses of an organization. Addresses that are kept already stay untouched. -/
def setSenders (org : String) (submitted : Json) : Tx (List String) := do
  match Sender.submit submitted with
  | .error refusal => throw (.invalid refusal.message)
  | .ok addresses =>
    let moment ← bareNow
    match ← senderList? (.text org) with
    | none => add (SenderList.mk org (.texts addresses) moment)
    | some kept =>
      if kept.addresses.same (.texts addresses) then pure ()
      else change (fun s : SenderList => s.org == org) fun s =>
        { s with addresses := .texts addresses, updated := moment }
    pure addresses

end Store
end Casework
