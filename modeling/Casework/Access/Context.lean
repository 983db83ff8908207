/-
  Casework.Access.Context

  Who acts, in which organization, and with which roles. The declared role and the roles of the
  membership are joined, and some roles imply others.
-/
import Casework.Access.Role

namespace Casework

/-- Who acts. -/
structure AccessContext where
  user : String
  org : String
  /-- The normal form of the declared role. -/
  role : Option String
  /-- All roles held, in normal form, each once. -/
  roles : List String
  admin : Bool
  deriving DecidableEq, Repr

/-- Whom a task is assigned to. -/
structure Assignment where
  user : Option String
  role : Option String
  deriving DecidableEq, Repr

namespace AccessContext

/-- The roles that administration implies. -/
def impliedByAdmin : List String := ["manager", "reviewer", "member", "user"]

/-- The roles that being declared a member implies. -/
def impliedByMember : List String := ["reviewer", "user"]

/-- The roles that managing implies. -/
def impliedByManager : List String := ["reviewer"]

/-- Adds implied roles to a set of roles if a condition holds. -/
def imply (condition : Bool) (implied roles : List String) : List String :=
  if condition then Role.union roles implied else roles

/-- All roles held, given the normal forms of the declared role and of the membership's roles. -/
def expand (declared : Option String) (admin : Bool) (membership : List String) : List String :=
  let roles := Role.union membership declared.toList
  let roles := imply admin impliedByAdmin roles
  let roles := imply (declared == some BaseRole.member.word) impliedByMember roles
  imply (roles.contains "manager") impliedByManager roles

/-- The context of a user with a declared role, an administrator's flag and a set of normalized
membership roles. -/
def ofSet (user org : String) (declared : Option String) (admin : Bool)
    (membership : List String) : AccessContext :=
  let role := declared.bind Role.normalize
  let admin := admin || Role.isAdmin role
  { user, org, role, admin, roles := expand role admin membership }

/-- The context of a user with a declared role, an administrator's flag and membership roles. -/
def build (user org : String) (declared : Option String) (admin : Bool)
    (membership : List (Option String)) : AccessContext :=
  ofSet user org declared admin (Role.normalSet (membership.filterMap id))

/-- Whether the actor holds the role that a task is assigned to. -/
def holdsRole (context : AccessContext) (assigned : Option String) : Bool :=
  match assigned.bind Role.normalize with
  | none => false
  | some role => context.admin || context.roles.contains role

/-- Whether the actor may change a task. -/
def canMutate (context : AccessContext) (task : Assignment) : Bool :=
  context.admin || task.user == some context.user

/-- Whether the actor may claim a task. -/
def canClaim (context : AccessContext) (task : Assignment) : Bool :=
  (task.user.getD "" == "") && context.holdsRole task.role

end AccessContext
end Casework
