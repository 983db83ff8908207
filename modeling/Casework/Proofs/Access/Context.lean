/-
  Casework.Proofs.Access.Context

  The roles that an actor holds are the least set that holds the declared role and the roles of the
  membership, in normal form, and all that these imply: the implications are gone through only once,
  each after those that may call for it, and nothing is left to be implied. So it makes no
  difference in which order or how often the roles of a membership are named, and who is given more
  roles can do no less. Without the administrator's flag, an actor has the access of administrators
  exactly if the declared role has the permission to administer.

  Those that ask a context for its roles take their normal forms once more. They find the roles that
  the context has exactly if all roles that it was built from have normal forms that are their own.
-/
import Casework.Access.Context
import Casework.Access.Permission
import Casework.Proofs.Access.Role

namespace Casework

/-- To administer is what administrators may do, and nobody else. -/
theorem Role.may_administer (role : Option String) :
    Role.may role .administer = Role.isAdmin role := by
  rw [Role.may, Role.isAdmin, BaseRole.resolve]
  cases BaseRole.of? role with
  | none => rfl
  | some base => cases base <;> rfl

namespace AccessContext

variable {user org : String} {declared : Option String} {admin : Bool}
  {membership others : List (Option String)} {role : String}

-- ============================================================================
-- Roles that are held
-- ============================================================================

/-- The roles that somebody holds who declares a role, may be flagged as an administrator, and has
the roles of a membership. -/
inductive Holds (declared : Option String) (admin : Bool) (membership : List (Option String)) :
    String → Prop where
  | given {name role : String} (hname : some name ∈ membership)
      (hrole : Role.normalize name = some role) : Holds declared admin membership role
  | declared {role : String} (hrole : declared.bind Role.normalize = some role) :
      Holds declared admin membership role
  | ofAdmin {role : String} (hadmin : admin = true ∨
    Role.isAdmin (declared.bind Role.normalize) = true)
      (hrole : role ∈ impliedByAdmin) : Holds declared admin membership role
  | ofMember {role : String} (hmember : declared.bind Role.normalize = some "member")
      (hrole : role ∈ impliedByMember) : Holds declared admin membership role
  | ofManager {role : String} (hmanager : Holds declared admin membership "manager")
      (hrole : role ∈ impliedByManager) : Holds declared admin membership role

/-- With more roles in the membership, more roles are held. -/
theorem Holds.mono (h : ∀ given ∈ membership, given ∈ others)
    (hrole : Holds declared admin membership role) : Holds declared admin others role := by
  induction hrole with
  | given hname hrole => exact .given (h _ hname) hrole
  | declared hrole => exact .declared hrole
  | ofAdmin hadmin hrole => exact .ofAdmin hadmin hrole
  | ofMember hmember hrole => exact .ofMember hmember hrole
  | ofManager _ hrole ih => exact .ofManager ih hrole

theorem mem_imply {condition : Bool} {implied roles : List String} :
    role ∈ imply condition implied roles ↔ role ∈ roles ∨ condition = true ∧ role ∈ implied := by
  rw [imply]
  cases condition <;> simp [Role.mem_union]

/-- All roles held, but for those that managing implies. -/
def beforeManaging (declared : Option String) (admin : Bool) (membership : List String) :
    List String :=
  imply (declared == some BaseRole.member.word) impliedByMember
    (imply admin impliedByAdmin (Role.union membership declared.toList))

theorem mem_beforeManaging {membership : List String} :
    role ∈ beforeManaging declared admin membership ↔
      role ∈ membership ∨ declared = some role ∨ admin = true ∧ role ∈ impliedByAdmin ∨
        declared = some "member" ∧ role ∈ impliedByMember := by
  rw [beforeManaging, mem_imply, mem_imply, Role.mem_union, Option.mem_toList, beq_iff_eq, or_assoc,
    or_assoc]
  rfl

/-- The roles of a context, as they are worked out: those before the implications of managers, and
these if a manager is among them. -/
theorem mem_expand {membership : List String} :
    role ∈ expand declared admin membership ↔
      role ∈ beforeManaging declared admin membership ∨
        "manager" ∈ beforeManaging declared admin membership ∧ role ∈ impliedByManager := by
  have hmanager : (beforeManaging declared admin membership).contains "manager" = true ↔
      "manager" ∈ beforeManaging declared admin membership := List.contains_iff_mem
  rw [← hmanager]
  exact mem_imply

/-- What managing implies is no managing, so it is enough to add it in the end. -/
theorem mem_expand_of_manager {membership : List String}
    (h : "manager" ∈ expand declared admin membership) (hrole : role ∈ impliedByManager) :
    role ∈ expand declared admin membership := by
  have hbefore : "manager" ∈ beforeManaging declared admin membership := by
    rcases mem_expand.1 h with h | ⟨h, -⟩ <;> exact h
  exact mem_expand.2 (.inr ⟨hbefore, hrole⟩)

/-- The context has just the roles that are held. -/
theorem mem_roles_build :
    role ∈ (build user org declared admin membership).roles ↔
      Holds declared admin membership role := by
  -- The roles of the membership in normal form.
  have hgiven : ∀ r, r ∈ Role.normalSet (membership.filterMap id) ↔
      ∃ name, some name ∈ membership ∧ Role.normalize name = some r := by
    intro r
    simp [Role.mem_normalSet]
  -- Each of the ways into `beforeManaging` is one of the ways of holding a role.
  have hbefore : ∀ r, r ∈ beforeManaging (declared.bind Role.normalize)
      (admin || Role.isAdmin (declared.bind Role.normalize))
      (Role.normalSet (membership.filterMap id)) → Holds declared admin membership r := by
    intro r hr
    rw [mem_beforeManaging, hgiven, Bool.or_eq_true] at hr
    rcases hr with ⟨name, hname, hr⟩ | hr | ⟨hadmin, hr⟩ | ⟨hmember, hr⟩
    · exact .given hname hr
    · exact .declared hr
    · exact .ofAdmin hadmin hr
    · exact .ofMember hmember hr
  show role ∈ expand _ _ _ ↔ _
  constructor
  · intro h
    rcases mem_expand.1 h with h | ⟨hmanager, h⟩
    · exact hbefore role h
    · exact .ofManager (hbefore _ hmanager) h
  · intro h
    -- By induction on how the role is held: every way but the last ends before the implications of
    -- managers are added.
    induction h with
    | given hname hrole =>
      exact mem_expand.2 (.inl (mem_beforeManaging.2 (.inl ((hgiven _).2 ⟨_, hname, hrole⟩))))
    | declared hrole => exact mem_expand.2 (.inl (mem_beforeManaging.2 (.inr (.inl hrole))))
    | ofAdmin hadmin hrole =>
      exact mem_expand.2 (.inl (mem_beforeManaging.2 (.inr (.inr (.inl
        ⟨Bool.or_eq_true_iff.2 hadmin, hrole⟩)))))
    | ofMember hmember hrole =>
      exact mem_expand.2 (.inl (mem_beforeManaging.2 (.inr (.inr (.inr ⟨hmember, hrole⟩)))))
    | ofManager _ hrole ih => exact mem_expand_of_manager ih hrole

-- ============================================================================
-- What a context allows
-- ============================================================================

/-- Nothing is missing that the roles and the access of a context imply. -/
structure Closed (c : AccessContext) : Prop where
  ofManager : "manager" ∈ c.roles → "reviewer" ∈ c.roles
  ofAdmin : c.admin = true → ∀ role ∈ ["manager", "reviewer", "member", "user"], role ∈ c.roles
  ofMember : c.role = some "member" → ∀ role ∈ ["reviewer", "user"], role ∈ c.roles

/-- The roles of a context hold all that they imply. -/
theorem closed_build : (build user org declared admin membership).Closed where
  ofManager h := mem_roles_build.2 (.ofManager (mem_roles_build.1 h) List.mem_cons_self)
  ofAdmin h _ hrole := mem_roles_build.2 (.ofAdmin (Bool.or_eq_true_iff.1 h) hrole)
  ofMember h _ hrole := mem_roles_build.2 (.ofMember h hrole)

/-- All that one context has and allows, another one has and allows, too. -/
structure Within (c d : AccessContext) : Prop where
  roles : ∀ role ∈ c.roles, role ∈ d.roles
  claims : ∀ task, c.canClaim task = true → d.canClaim task = true
  changes : ∀ task, c.canMutate task = true → d.canMutate task = true

/-- A context is taken to hold a role if the role has a normal form and the context has it, or the
access of administrators. -/
theorem holdsRole_iff {c : AccessContext} {assigned : Option String} :
    c.holdsRole assigned = true ↔
      ∃ role, assigned.bind Role.normalize = some role ∧ (c.admin = true ∨ role ∈ c.roles) := by
  rw [holdsRole]
  cases assigned.bind Role.normalize with
  | none => simp
  | some role => simp

/-- Contexts of one user with the same access are told apart by their roles. -/
theorem Within.of_roles {c d : AccessContext} (huser : d.user = c.user) (hadmin : d.admin = c.admin)
    (hroles : ∀ role ∈ c.roles, role ∈ d.roles) : c.Within d where
  roles := hroles
  claims task h := by
    obtain ⟨hfree, hholds⟩ := Bool.and_eq_true_iff.1 h
    obtain ⟨role, hrole, hheld⟩ := holdsRole_iff.1 hholds
    have hheld' : d.admin = true ∨ role ∈ d.roles := by
      rw [hadmin]
      exact hheld.imp_right (hroles role)
    exact Bool.and_eq_true_iff.2 ⟨hfree, holdsRole_iff.2 ⟨role, hrole, hheld'⟩⟩
  changes task h := by
    rw [canMutate, huser, hadmin]
    exact h

/-- With more names in the membership a context has no fewer roles. -/
theorem within_build (h : ∀ given ∈ membership, given ∈ others) :
    (build user org declared admin membership).Within (build user org declared admin others) :=
  .of_roles rfl rfl fun _ hrole => mem_roles_build.2 ((mem_roles_build.1 hrole).mono h)

-- ============================================================================
-- Contexts as a whole
-- ============================================================================

/-- A context has the roles that are held, and all that they imply. It has them whatever the order
and the number of the roles in the membership, and no less if there are more of them. Unless it was
flagged, it gives the access of administrators exactly if its role may administer. -/
theorem roles_closed_and_grow (user org : String) (declared : Option String) (admin : Bool)
    (membership : List (Option String)) :
    (∀ role, role ∈ (build user org declared admin membership).roles ↔
        Holds declared admin membership role) ∧
      (build user org declared admin membership).Closed ∧
      (∀ others, (∀ given, given ∈ others ↔ given ∈ membership) →
        ∀ role, role ∈ (build user org declared admin others).roles ↔
          role ∈ (build user org declared admin membership).roles) ∧
      (∀ more, (∀ given ∈ membership, given ∈ more) →
        (build user org declared admin membership).Within (build user org declared admin more)) ∧
      (admin = false → (build user org declared admin membership).admin =
        Role.may (build user org declared admin membership).role .administer) := by
  refine ⟨fun _ => mem_roles_build, closed_build, fun others hsame role => ?_,
    fun _ hmore => within_build hmore, ?_⟩
  · have hmore : (build user org declared admin others).Within
        (build user org declared admin membership) :=
      within_build fun given => (hsame given).1
    have hless : (build user org declared admin membership).Within
        (build user org declared admin others) :=
      within_build fun given => (hsame given).2
    exact ⟨hmore.roles role, hless.roles role⟩
  · rintro rfl
    rw [Role.may_administer]
    rfl

/-- A manager who is declared a member, in other spellings, and gets one role more. -/
theorem roles_closed_and_grow_manager :
    let ann := build "ann" "acme" (some " Org:Member ") false [some "MANAGER", none]
    let promoted := build "ann" "acme" (some " Org:Member ") false
      [none, some "sales", some "MANAGER"]
    ann.Within promoted ∧ ann.roles = ["manager", "member", "reviewer", "user"] ∧
      promoted.roles = ["sales", "manager", "member", "reviewer", "user"] ∧
      promoted.admin = Role.may promoted.role .administer := by
  intro ann promoted
  obtain ⟨-, -, -, hgrow, -⟩ := roles_closed_and_grow "ann" "acme" (some " Org:Member ") false
    [some "MANAGER", none]
  obtain ⟨-, -, -, -, hadmin⟩ := roles_closed_and_grow "ann" "acme" (some " Org:Member ") false
      [none, some "sales", some "MANAGER"]
  exact ⟨hgrow _ (by decide), by decide +kernel, by decide +kernel, hadmin rfl⟩

-- ============================================================================
-- Normal forms taken again
-- ============================================================================

/-- Whoever takes the normal forms of a context's roles again finds the roles that it has: so do the
question whether the role is that of an administrator, the search for its permissions, and the
search for the fields of contacts that the roles give access to. -/
structure Settled (c : AccessContext) : Prop where
  normal : ∀ role ∈ c.roles, Role.normalize role = some role
  base : BaseRole.of? c.role = c.role.bind BaseRole.ofWord?
  isAdmin : Role.isAdmin c.role = true ↔ c.role = some "owner" ∨ c.role = some "admin"
  fields : ∀ role, role ∈ Role.normalSet (c.role.toList ++ c.roles) ↔ role ∈ c.roles

/-- A context whose roles are their own normal forms, the declared one among them, is settled: who
asks it for its roles finds those that it has. -/
theorem Settled.of_normal {c : AccessContext} (hrole : ∀ role ∈ c.role, role ∈ c.roles)
    (h : ∀ role ∈ c.roles, Role.normalize role = some role) : c.Settled := by
  -- The normal form of the declared role is the role, so the base role is found by its word.
  have hbase : BaseRole.of? c.role = c.role.bind BaseRole.ofWord? := by
    rw [BaseRole.of?]
    cases hdeclared : c.role with
    | none => rfl
    | some role => rw [Option.bind_some, h role (hrole role hdeclared)]
  refine ⟨h, hbase, ?_, fun role => ?_⟩
  · rw [Role.isAdmin_iff, hbase, Option.bind_eq_some_iff, Option.bind_eq_some_iff]
    simp only [BaseRole.ofWord?_eq_some_iff]
    simp [BaseRole.word]
  · rw [Role.mem_normalSet, List.mem_filterMap]
    constructor
    · rintro ⟨name, hname, hnormal⟩
      have hheld : name ∈ c.roles := by
        rcases List.mem_append.1 hname with hdeclared | hheld
        · exact hrole name (Option.mem_toList.1 hdeclared)
        · exact hheld
      obtain rfl := Option.some_inj.1 ((h name hheld).symm.trans hnormal)
      exact hheld
    · exact fun hheld => ⟨role, List.mem_append_right _ hheld, h role hheld⟩

/-- The roles that others imply are written in normal form. -/
theorem normalize_implied : ∀ implied ∈ [impliedByAdmin, impliedByMember, impliedByManager],
    ∀ role ∈ implied, Role.normalize role = some role := by
  decide +kernel

/-- What does not stutter gives roles whose normal form is their own, and no implied role
stutters. -/
theorem Holds.normal (h : ∀ given ∈ declared :: membership, ∀ name ∈ given, ¬ Role.Stutters name)
    {role : String} (hrole : Holds declared admin membership role) :
    Role.normalize role = some role := by
  have hname : ∀ given ∈ declared :: membership, ∀ role, given.bind Role.normalize = some role →
      Role.normalize role = some role := by
    rintro given hgiven role hrole
    obtain ⟨name, rfl, hnormal⟩ := Option.bind_eq_some_iff.1 hrole
    have hagain := Role.normalize_bind_normalize_iff.2 (h _ hgiven name rfl)
    rwa [hnormal] at hagain
  cases hrole with
  | given hmem hnormal => exact hname _ (List.mem_cons_of_mem _ hmem) _ hnormal
  | declared hnormal => exact hname _ List.mem_cons_self _ hnormal
  | ofAdmin _ himplied => exact normalize_implied impliedByAdmin (by simp) _ himplied
  | ofMember _ himplied => exact normalize_implied impliedByMember (by simp) _ himplied
  | ofManager _ himplied => exact normalize_implied impliedByManager (by simp) _ himplied

/-- A context that was built is settled exactly if no name that it was built from stutters. -/
theorem settled_build_iff :
    (build user org declared admin membership).Settled ↔
      ∀ given ∈ declared :: membership, ∀ name ∈ given, ¬ Role.Stutters name := by
  constructor
  · intro h given hgiven name hname
    rw [← Role.normalize_bind_normalize_iff]
    cases hnormal : Role.normalize name with
    | none => rfl
    | some role =>
      have hheld : Holds declared admin membership role := by
        rcases List.mem_cons.1 hgiven with rfl | hmem
        · exact .declared (Option.bind_eq_some_iff.2 ⟨name, hname, hnormal⟩)
        · exact .given (hname ▸ hmem) hnormal
      exact h.normal role (mem_roles_build.2 hheld)
  · exact fun h => .of_normal (fun role hrole => mem_roles_build.2 (.declared hrole))
      fun role hrole => (mem_roles_build.1 hrole).normal h

end AccessContext

namespace Role

/-- Taking the normal form again changes nothing exactly for roles that do not stutter, and a
context is read alike by all that take the normal forms of its roles again exactly if none of the
roles that it was built from stutters. -/
theorem normal_forms_settle_iff (role user org : String) (declared : Option String) (admin : Bool)
    (membership : List (Option String)) :
    ((normalize role).bind normalize = normalize role ↔ ¬ Stutters role) ∧
      ((AccessContext.build user org declared admin membership).Settled ↔
        ∀ given ∈ declared :: membership, ∀ name ∈ given, ¬ Stutters name) :=
  ⟨normalize_bind_normalize_iff, AccessContext.settled_build_iff⟩

/-- Behind the lead of this role stands a blank. Its normal form begins with the blank and has
another one: whoever declares the role has the access of administrators, but does not hold their
role. -/
theorem not_all_normal_forms_settle :
    (¬ ∀ role, (normalize role).bind normalize = normalize role) ∧
      let ann := AccessContext.build "ann" "acme" (some "org: admin") false []
      ann.role = some " admin" ∧ ann.admin = true ∧ "admin" ∉ ann.roles := by
  constructor
  · intro h
    have hagain := h "org: admin"
    rw [show normalize "org: admin" = some " admin" by decide +kernel, Option.bind_some] at hagain
    exact absurd hagain (by decide +kernel)
  · decide +kernel

end Role
end Casework
