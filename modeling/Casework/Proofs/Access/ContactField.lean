/-
  Casework.Proofs.Access.ContactField

  Which fields of contacts can be read and written. For every role that is held, a field is granted
  by the last policy about the role and the field, or, if there is none, by the base role that the
  role is; to a custom role without a policy it is not. A field can be read or written if a single
  role grants it. So what can be written can be read, no role takes away what another one grants,
  and the order of the roles makes no difference.

  The order of the policies may make one. Roles are told apart by their normal forms: two policies
  that name a role in two spellings are about one role, and either may be the last. So there is what
  a role may come to be granted in some order. A right to a field does not depend on the order
  exactly if one of the roles held has it in any order, or none of them has it in any.
-/
import Casework.Access.ContactField
import Casework.Proofs.Access.Role
import Mathlib.Data.List.Pairwise
import Mathlib.Data.List.Perm.Basic

namespace Casework

-- ============================================================================
-- Policies
-- ============================================================================

namespace FieldPolicy

/-- The policy is about a role in normal form and a field. -/
def Governs (p : FieldPolicy) (role field : String) : Prop :=
  Role.normalize p.role = some role ∧ p.field = field

instance (p : FieldPolicy) (role field : String) : Decidable (p.Governs role field) :=
  inferInstanceAs (Decidable (_ ∧ _))

/-- The policy is the last one about a role and a field. -/
def IsLast (policies : List FieldPolicy) (role field : String) (p : FieldPolicy) : Prop :=
  p.Governs role field ∧
    ∃ before after, policies = before ++ p :: after ∧ ∀ q ∈ after, ¬ q.Governs role field

/-- The last policy about a role and a field is one of the policies. -/
theorem IsLast.mem {policies : List FieldPolicy} {role field : String} {p : FieldPolicy}
    (h : p.IsLast policies role field) : p ∈ policies := by
  obtain ⟨-, before, after, rfl, -⟩ := h
  exact List.mem_append_right _ List.mem_cons_self

end FieldPolicy

namespace Grant

variable {policies : List FieldPolicy} {role field : String} {p : FieldPolicy}

/-- The test by which a policy is found is whether it is about the role, in normal form, and the
field. -/
theorem governs_iff : (Role.normalize p.role == some role && p.field == field) = true ↔
    p.Governs role field := by
  rw [Bool.and_eq_true, beq_iff_eq, beq_iff_eq, FieldPolicy.Governs]

/-- The search for a policy finds the last one that is about the role and the field. -/
theorem policy?_eq_some_iff :
    policy? policies role field = some p ↔ p.IsLast policies role field := by
  rw [policy?, List.find?_eq_some_iff_append, governs_iff]
  refine and_congr_right fun _ => ?_
  constructor
  · rintro ⟨after, before, hlist, hafter⟩
    refine ⟨before.reverse, after.reverse, ?_, fun q hq hgoverns => ?_⟩
    · rw [← List.reverse_reverse policies, hlist]
      simp
    · have hnot := hafter q (List.mem_reverse.1 hq)
      rw [governs_iff.2 hgoverns] at hnot
      cases hnot
  · rintro ⟨before, after, rfl, hafter⟩
    refine ⟨after.reverse, before.reverse, by simp, fun q hq => ?_⟩
    rw [Bool.not_eq_true', Bool.eq_false_iff]
    exact fun hgoverns => hafter q (List.mem_reverse.1 hq) (governs_iff.1 hgoverns)

/-- The search finds nothing exactly if no policy is about the role and the field. -/
theorem policy?_eq_none_iff :
    policy? policies role field = none ↔ ∀ p ∈ policies, ¬ p.Governs role field := by
  rw [policy?, List.find?_eq_none]
  simp only [List.mem_reverse, governs_iff]

-- ============================================================================
-- Single roles
-- ============================================================================

/-- A role has a right to a field: the last policy about them gives it, or there is none and the
role is a base role that has the right by itself. -/
inductive Has (policies : List FieldPolicy) (role field : String) (gives : FieldPolicy → Prop)
    (byItself : BaseRole → Prop) : Prop where
  | policy {p : FieldPolicy} (hlast : p.IsLast policies role field) (hgives : gives p) :
      Has policies role field gives byItself
  | base {base : BaseRole} (hnone : ∀ p ∈ policies, ¬ p.Governs role field)
      (hbase : BaseRole.of? (some role) = some base) (hitself : byItself base) :
      Has policies role field gives byItself

/-- The role can read the field. By themselves, all base roles read all fields, but guests only
some. -/
def Reads (policies : List FieldPolicy) (role field : String) : Prop :=
  Has policies role field (fun p => p.read = true) fun base => base = .guest → field ∈ guestFields

/-- The role can write the field. A policy that gives writing gives reading, too; by themselves, all
base roles but guests write all fields. -/
def Writes (policies : List FieldPolicy) (role field : String) : Prop :=
  Has policies role field (fun p => p.read = true ∧ p.write = true) fun base => base ≠ .guest

/-- A role that can write a field can read it. -/
theorem Writes.reads (h : Writes policies role field) : Reads policies role field := by
  cases h with
  | policy hlast hgives => exact .policy hlast hgives.1
  | base hnone hbase hitself => exact .base hnone hbase fun hguest => absurd hguest hitself

/-- A right that policies and base roles give as they are said to is one that the resolved grant
holds. -/
theorem right_resolve_iff (right : Grant → Bool) {gives : FieldPolicy → Prop}
    {byItself : BaseRole → Prop}
    (hpolicy : ∀ p, right (ofPolicy p) = true ↔ gives p)
    (hrole : right (ofRole role field) = true ↔
      ∃ base, BaseRole.of? (some role) = some base ∧ byItself base) :
    right (resolve policies role field) = true ↔ Has policies role field gives byItself := by
  rw [resolve]
  cases hfound : policy? policies role field with
  | some p =>
    -- A policy is found: it is the last one, so what it gives is what is held.
    constructor
    · exact fun hright => .policy (policy?_eq_some_iff.1 hfound) ((hpolicy p).1 hright)
    · intro h
      cases h with
      | policy hlast hgives =>
        obtain rfl := Option.some_inj.1 (hfound.symm.trans (policy?_eq_some_iff.2 hlast))
        exact (hpolicy p).2 hgives
      | base hnone =>
        rw [policy?_eq_none_iff.2 hnone] at hfound
        cases hfound
  | none =>
    -- No policy is found, so only the base role counts.
    constructor
    · intro hright
      obtain ⟨base, hbase, hitself⟩ := hrole.1 hright
      exact .base (policy?_eq_none_iff.1 hfound) hbase hitself
    · intro h
      cases h with
      | policy hlast =>
        rw [policy?_eq_some_iff.2 hlast] at hfound
        cases hfound
      | base _ hbase hitself => exact hrole.2 ⟨_, hbase, hitself⟩

/-- The resolved grant lets a role read exactly what policies and base roles let it read. -/
theorem read_resolve_iff :
    (resolve policies role field).read = true ↔ Reads policies role field := by
  refine right_resolve_iff Grant.read (fun _ => Iff.rfl) ?_
  rw [ofRole]
  cases BaseRole.of? (some role) with
  | none => simp
  | some base => cases base <;> simp

/-- The resolved grant lets a role write exactly what policies and base roles let it write. -/
theorem write_resolve_iff :
    (resolve policies role field).write = true ↔ Writes policies role field := by
  refine right_resolve_iff Grant.write (fun _ => Bool.and_eq_true_iff) ?_
  rw [ofRole]
  cases BaseRole.of? (some role) with
  | none => simp
  | some base => cases base <;> simp

end Grant

-- ============================================================================
-- All roles together
-- ============================================================================

namespace FieldAccess

variable {keys more : List (Option String)} {policies : List FieldPolicy} {field : String}

/-- A role that one of the keys stands for. -/
def Held (keys : List (Option String)) (role : String) : Prop :=
  ∃ key, some key ∈ keys ∧ Role.normalize key = some role

theorem mem_normalSet_iff_held {role : String} :
    role ∈ Role.normalSet (keys.filterMap id) ↔ Held keys role := by
  simp [Role.mem_normalSet, Held]

/-- One of the roles held has a right to a field. -/
def Granted (keys : List (Option String)) (policies : List FieldPolicy) (right : Grant → Bool)
    (field : String) : Prop :=
  ∃ role, Held keys role ∧ right (Grant.resolve policies role field) = true

theorem mem_readable_iff_granted : field ∈ (resolve (keys.filterMap id) policies).readable ↔
    field ∈ contactFields ∧ Granted keys policies Grant.read field := by
  simp only [resolve, ofRoles, List.mem_filter, List.any_eq_true, mem_normalSet_iff_held, Granted]

theorem mem_writable_iff_granted : field ∈ (resolve (keys.filterMap id) policies).writable ↔
    field ∈ contactFields ∧ Granted keys policies Grant.write field := by
  simp only [resolve, ofRoles, List.mem_filter, List.any_eq_true, mem_normalSet_iff_held, Granted]

/-- A field can be read if it is one of the fields of contacts and a role that is held can read
it. -/
theorem mem_readable_iff : field ∈ (resolve (keys.filterMap id) policies).readable ↔
    field ∈ contactFields ∧ ∃ role, Held keys role ∧ Grant.Reads policies role field := by
  simp only [mem_readable_iff_granted, Granted, Grant.read_resolve_iff]

/-- A field can be written if it is one of the fields of contacts and a role that is held can write
it. -/
theorem mem_writable_iff : field ∈ (resolve (keys.filterMap id) policies).writable ↔
    field ∈ contactFields ∧ ∃ role, Held keys role ∧ Grant.Writes policies role field := by
  simp only [mem_writable_iff_granted, Granted, Grant.write_resolve_iff]

/-- All that one access allows, another one allows, too. -/
structure Within (a b : FieldAccess) : Prop where
  readable : ∀ field ∈ a.readable, field ∈ b.readable
  writable : ∀ field ∈ a.writable, field ∈ b.writable

/-- With more keys, more roles are held, and one of them has the right still. -/
theorem Granted.mono (h : ∀ key ∈ keys, key ∈ more) {right : Grant → Bool}
    (hgranted : Granted keys policies right field) : Granted more policies right field := by
  obtain ⟨role, ⟨key, hkey, hnormal⟩, hright⟩ := hgranted
  exact ⟨role, ⟨key, h _ hkey, hnormal⟩, hright⟩

/-- Whoever holds more roles can read and write no fewer fields. -/
theorem within_resolve (h : ∀ key ∈ keys, key ∈ more) :
    (resolve (keys.filterMap id) policies).Within (resolve (more.filterMap id) policies) where
  readable field hfield := by
    obtain ⟨hcontact, hgranted⟩ := mem_readable_iff_granted.1 hfield
    exact mem_readable_iff_granted.2 ⟨hcontact, hgranted.mono h⟩
  writable field hfield := by
    obtain ⟨hcontact, hgranted⟩ := mem_writable_iff_granted.1 hfield
    exact mem_writable_iff_granted.2 ⟨hcontact, hgranted.mono h⟩

theorem filter_contactFields_eq_iff {f g : String → Bool} :
    contactFields.filter f = contactFields.filter g ↔
      ∀ field ∈ contactFields, (f field = true ↔ g field = true) := by
  constructor
  · intro h field hfield
    have hmem : field ∈ contactFields.filter f ↔ field ∈ contactFields.filter g := by rw [h]
    rwa [List.mem_filter, List.mem_filter, and_congr_right_iff, imp_iff_right hfield] at hmem
  · exact fun h => List.filter_congr fun field hfield => Bool.eq_iff_iff.2 (h field hfield)

/-- The fields stand in one order, so an access is told by what is granted. -/
theorem resolve_eq_iff {others : List FieldPolicy} :
    resolve (keys.filterMap id) policies = resolve (more.filterMap id) others ↔
      ∀ field ∈ contactFields,
        (Granted keys policies Grant.read field ↔ Granted more others Grant.read field) ∧
          (Granted keys policies Grant.write field ↔ Granted more others Grant.write field) := by
  rw [resolve, resolve, ofRoles, ofRoles, FieldAccess.mk.injEq, filter_contactFields_eq_iff,
    filter_contactFields_eq_iff, ← forall₂_and]
  simp only [List.any_eq_true, mem_normalSet_iff_held, Granted]

/-- A field of contacts can be read, or written, if one of the roles held can read, or write, it,
whatever the others can. What can be written can be read; more roles give no less, and the order and
the number of the keys that stand for them make no difference. -/
theorem resolve_joins_roles (keys : List (Option String)) (policies : List FieldPolicy) :
    let access := resolve (keys.filterMap id) policies
    (∀ field, field ∈ access.readable ↔
        field ∈ contactFields ∧ ∃ role, Held keys role ∧ Grant.Reads policies role field) ∧
      (∀ field, field ∈ access.writable ↔
        field ∈ contactFields ∧ ∃ role, Held keys role ∧ Grant.Writes policies role field) ∧
      (∀ field ∈ access.writable, field ∈ access.readable) ∧
      (∀ more : List (Option String), (∀ key ∈ keys, key ∈ more) →
        access.Within (resolve (more.filterMap id) policies)) ∧
      ∀ others : List (Option String), (∀ key, key ∈ others ↔ key ∈ keys) →
        resolve (others.filterMap id) policies = access := by
  refine ⟨fun _ => mem_readable_iff, fun _ => mem_writable_iff, fun field hfield => ?_,
    fun _ hmore => within_resolve hmore, fun _ hsame => ?_⟩
  -- What can be written can be read, by the role that can write it.
  · obtain ⟨hcontact, role, hheld, hwrites⟩ := mem_writable_iff.1 hfield
    exact mem_readable_iff.2 ⟨hcontact, role, hheld, hwrites.reads⟩
  -- The access depends on the keys only through the roles that they stand for.
  · have hgranted : ∀ right field, Granted _ policies right field ↔
        Granted keys policies right field :=
      fun _ _ => ⟨.mono fun key => (hsame key).1, .mono fun key => (hsame key).2⟩
    exact resolve_eq_iff.2 fun field _ => ⟨hgranted _ field, hgranted _ field⟩

/-- Policies for two custom roles and for guests. About the first role and its mail there are
two. -/
def salesPolicies : List FieldPolicy := [
  ⟨"sales", "email", false, true⟩, ⟨" Org:Sales ", "email", true, true⟩,
  ⟨"support", "email", false, false⟩, ⟨"guest", "company", false, true⟩]

/-- The last policy about the mail of one role gives what the policy of another role refuses, and a
guest keeps what no policy takes away. -/
theorem resolve_joins_roles_sales :
    let access :=
      resolve ([some "support", some "GUEST", none, some "Sales"].filterMap id) salesPolicies
    "email" ∈ access.readable ∧
      (resolve ([some "Sales", some "support"].filterMap id) salesPolicies).Within access ∧
      access = ⟨["first_name", "last_name", "email", "role", "status", "avatar_url", "tags"],
        ["email"]⟩ := by
  intro access
  obtain ⟨-, hwritable, hsub, -, -⟩ :=
    resolve_joins_roles [some "support", some "GUEST", none, some "Sales"] salesPolicies
  obtain ⟨-, -, -, hmore, -⟩ := resolve_joins_roles [some "Sales", some "support"] salesPolicies
  -- The policies about the mail of sales are two, in two spellings; the second one counts.
  have hlast : FieldPolicy.IsLast salesPolicies "sales" "email"
      ⟨" Org:Sales ", "email", true, true⟩ := by
    refine ⟨by decide +kernel, [⟨"sales", "email", false, true⟩], _, rfl, ?_⟩
    decide +kernel
  have hheld : Held [some "support", some "GUEST", none, some "Sales"] "sales" :=
    ⟨"Sales", by decide, by decide +kernel⟩
  exact ⟨hsub _ ((hwritable "email").2 ⟨by decide, "sales", hheld, .policy hlast ⟨rfl, rfl⟩⟩),
    hmore _ (by decide), by decide +kernel⟩

end FieldAccess

/-- No role and field have both policies about them. -/
def FieldPolicy.Apart (p q : FieldPolicy) : Prop :=
  ∀ role field, p.Governs role field → ¬ q.Governs role field

instance : Std.Symm FieldPolicy.Apart :=
  ⟨fun _ _ hapart role field hq hp => hapart role field hp hq⟩

namespace Grant

variable {policies others : List FieldPolicy} {role field : String} {g : Grant}
    {right : Grant → Bool}
  {verdict : Bool}

-- ============================================================================
-- Grants of some order
-- ============================================================================

/-- What a role is granted for a field in some order of the policies: what any policy about them
gives, or, without one, what the role has by itself. -/
inductive Possible (policies : List FieldPolicy) (role field : String) : Grant → Prop where
  | policy {p : FieldPolicy} (hmem : p ∈ policies) (hgoverns : p.Governs role field) :
      Possible policies role field (ofPolicy p)
  | byItself (hnone : ∀ p ∈ policies, ¬ p.Governs role field) :
      Possible policies role field (ofRole role field)

/-- What a role is granted in the given order is one of the things that it may come to be
granted. -/
theorem possible_resolve (policies : List FieldPolicy) (role field : String) :
    Possible policies role field (resolve policies role field) := by
  rw [resolve]
  cases hfound : policy? policies role field with
  | some p =>
    have hlast := policy?_eq_some_iff.1 hfound
    exact .policy hlast.mem hlast.1
  | none => exact .byItself (policy?_eq_none_iff.1 hfound)

/-- Which grants are possible does not depend on the order. -/
theorem Possible.perm (hperm : policies.Perm others) (h : Possible policies role field g) :
    Possible others role field g := by
  cases h with
  | policy hmem hgoverns => exact .policy (hperm.mem_iff.1 hmem) hgoverns
  | byItself hnone => exact .byItself fun p hp => hnone p (hperm.mem_iff.2 hp)

/-- The policies in an order in which those come last that say one thing about a right. -/
def arranged (right : Grant → Bool) (verdict : Bool) (policies : List FieldPolicy) :
    List FieldPolicy :=
  policies.filter (fun p => !(right (ofPolicy p) == verdict)) ++
    policies.filter fun p => right (ofPolicy p) == verdict

theorem perm_arranged (right : Grant → Bool) (verdict : Bool) (policies : List FieldPolicy) :
    (arranged right verdict policies).Perm policies :=
  List.perm_append_comm.trans (List.filter_append_perm _ policies)

/-- Of two lists of policies, the second has the last word about a role and a field. -/
theorem policy?_append (before after : List FieldPolicy) (role field : String) :
    policy? (before ++ after) role field =
      (policy? after role field).or (policy? before role field) := by
  rw [policy?, List.reverse_append, List.find?_append]
  rfl

/-- In that order, what it may come to be said about the right is what is said, for all roles at
once. -/
theorem right_resolve_arranged (h : Possible policies role field g) (hright : right g = verdict) :
    right (resolve (arranged right verdict policies) role field) = verdict := by
  cases h with
  | @policy p hmem hgoverns =>
    -- Policies that decide the right as `g` does come last, and there is one, so the last policy
    -- about the role and the field is one of them.
    have hlate : p ∈ policies.filter fun p => right (ofPolicy p) == verdict :=
      List.mem_filter.2 ⟨hmem, beq_iff_eq.2 hright⟩
    rw [resolve, arranged, policy?_append]
    cases hfound : policy? (policies.filter fun p => right (ofPolicy p) == verdict) role field with
    | none => exact absurd hgoverns (policy?_eq_none_iff.1 hfound p hlate)
    | some last =>
      have hlast := (policy?_eq_some_iff.1 hfound).mem
      exact beq_iff_eq.1 (List.mem_filter.1 hlast).2
  | byItself hnone =>
    -- No policy is about them, in whichever order they come.
    have hstill : policy? (arranged right verdict policies) role field = none :=
      policy?_eq_none_iff.2 fun p hp => hnone p
        ((perm_arranged right verdict policies).mem_iff.1 hp)
    rw [resolve, hstill]
    exact hright

/-- If all policies are apart, only one of them can decide. -/
theorem Possible.unique (h : policies.Pairwise FieldPolicy.Apart)
    (hg : Possible policies role field g)
    {g' : Grant} (hg' : Possible policies role field g') : g = g' := by
  have hboth : ∀ p ∈ policies, ∀ q ∈ policies, p.Governs role field →
      q.Governs role field → p = q := by
    intro p hp q hq hgoverns hgoverns'
    by_contra hne
    exact h.forall hp hq hne role field hgoverns hgoverns'
  cases hg with
  | policy hmem hgoverns =>
    cases hg' with
    | policy hmem' hgoverns' => rw [hboth _ hmem _ hmem' hgoverns hgoverns']
    | byItself hnone => exact absurd hgoverns (hnone _ hmem)
  | byItself hnone =>
    cases hg' with
    | policy hmem' hgoverns' => exact absurd hgoverns' (hnone _ hmem')
    | byItself => rfl

end Grant

namespace FieldAccess

variable {keys : List (Option String)} {policies others : List FieldPolicy} {right : Grant → Bool}
  {field : String}

-- ============================================================================
-- Rights that do not depend on the order
-- ============================================================================

/-- If a right to a field comes to be granted to one of the roles held in some order of the
policies, one of the roles has it in any order. -/
def Firm (keys : List (Option String)) (policies : List FieldPolicy) (right : Grant → Bool)
    (field : String) : Prop :=
  (∃ role g, Held keys role ∧ Grant.Possible policies role field g ∧ right g = true) →
    ∃ role, Held keys role ∧ ∀ g, Grant.Possible policies role field g → right g = true

/-- A right that is firm is granted in the given order if it is granted in another one. -/
theorem Firm.granted (h : Firm keys policies right field) (hperm : others.Perm policies)
    (hgranted : Granted keys others right field) : Granted keys policies right field := by
  obtain ⟨role, hheld, hright⟩ := hgranted
  obtain ⟨firm, hfirm, hall⟩ :=
    h ⟨role, _, hheld, (Grant.possible_resolve others role field).perm hperm, hright⟩
  exact ⟨firm, hfirm, hall _ (Grant.possible_resolve policies firm field)⟩

/-- A right that is firm stays so in every other order of the policies. -/
theorem Firm.perm (hperm : policies.Perm others) (h : Firm keys policies right field) :
    Firm keys others right field := by
  rintro ⟨role, g, hheld, hpossible, hright⟩
  obtain ⟨firm, hfirm, hall⟩ := h ⟨role, g, hheld, hpossible.perm hperm.symm, hright⟩
  exact ⟨firm, hfirm, fun g hg => hall g (hg.perm hperm.symm)⟩

/-- A right is firm exactly if it is granted in all orders or in none. -/
theorem firm_iff : Firm keys policies right field ↔
    ∀ others, others.Perm policies →
      (Granted keys others right field ↔ Granted keys policies right field) := by
  constructor
  · exact fun h others hperm => ⟨h.granted hperm, (h.perm hperm.symm).granted hperm.symm⟩
  · rintro h ⟨role, g, hheld, hpossible, hright⟩
    -- It is granted with those policies last that give it, so also with those last that do not.
    have hgiving : Granted keys (Grant.arranged right true policies) right field :=
      ⟨role, hheld, Grant.right_resolve_arranged hpossible hright⟩
    have hrefusing : Granted keys (Grant.arranged right false policies) right field :=
      (h _ (Grant.perm_arranged right false policies)).2
        ((h _ (Grant.perm_arranged right true policies)).1 hgiving)
    obtain ⟨firm, hfirm, hright⟩ := hrefusing
    refine ⟨firm, hfirm, fun g hg => ?_⟩
    by_contra hnot
    rw [Grant.right_resolve_arranged hg (Bool.eq_false_iff.2 hnot)] at hright
    cases hright

/-- Where no two policies are about the same role and field, every right is firm. -/
theorem firm_of_pairwise (h : policies.Pairwise FieldPolicy.Apart) :
    Firm keys policies right field := by
  rintro ⟨role, g, hheld, hpossible, hright⟩
  exact ⟨role, hheld, fun _ hother => (hpossible.unique h hother) ▸ hright⟩

/-- The order of the policies makes no difference to what roles are granted exactly if both rights
to every field of contacts are firm. -/
theorem resolve_perm_iff :
    (∀ others, others.Perm policies →
        resolve (keys.filterMap id) others = resolve (keys.filterMap id) policies) ↔
      ∀ field ∈ contactFields,
        Firm keys policies Grant.read field ∧ Firm keys policies Grant.write field := by
  constructor
  · intro h field hfield
    exact ⟨firm_iff.2 fun others hperm => (resolve_eq_iff.1 (h others hperm) field hfield).1,
      firm_iff.2 fun others hperm => (resolve_eq_iff.1 (h others hperm) field hfield).2⟩
  · intro h others hperm
    exact resolve_eq_iff.2 fun field hfield =>
      ⟨firm_iff.1 (h field hfield).1 others hperm, firm_iff.1 (h field hfield).2 others hperm⟩

/-- The order of the policies makes no difference to what roles are granted exactly if both rights
to every field of contacts are firm, as they all are if no two policies are about one role, in
whatever spelling, and one field. -/
theorem order_makes_no_difference_iff (keys : List (Option String)) (policies : List FieldPolicy) :
    ((∀ others, others.Perm policies →
        resolve (keys.filterMap id) others = resolve (keys.filterMap id) policies) ↔
      ∀ field ∈ contactFields,
        Firm keys policies Grant.read field ∧ Firm keys policies Grant.write field) ∧
    (policies.Pairwise FieldPolicy.Apart → ∀ others, others.Perm policies →
      resolve (keys.filterMap id) others = resolve (keys.filterMap id) policies) :=
  ⟨resolve_perm_iff, fun h => resolve_perm_iff.2 fun _ _ =>
    ⟨firm_of_pairwise h, firm_of_pairwise h⟩⟩

/-- Two policies about the phone numbers of contacts. Both name one role. -/
def phonePolicies : List FieldPolicy :=
  [⟨"sales", "phone", true, true⟩, ⟨"Sales", "phone", false, false⟩]

/-- A member can read and write everything, so it makes no difference what is decided about
sales. -/
theorem order_makes_no_difference_member :
    phonePolicies.reverse.Perm phonePolicies ∧
      resolve ([some "sales", some "org:Member"].filterMap id) phonePolicies.reverse =
        resolve ([some "sales", some "org:Member"].filterMap id) phonePolicies := by
  have hmember : ∀ right : Grant → Bool, right ⟨true, true⟩ = true → ∀ field,
      Firm [some "sales", some "org:Member"] phonePolicies right field := by
    intro right hright field _
    refine ⟨"member", ⟨"org:Member", by decide, by decide +kernel⟩, fun g hg => ?_⟩
    have hnone : ∀ p ∈ phonePolicies, Role.normalize p.role ≠ some "member" := by decide +kernel
    cases hg with
    | policy hmem hgoverns => exact absurd hgoverns.1 (hnone _ hmem)
    | byItself =>
      have hbase : BaseRole.of? (some "member") = some .member := by decide +kernel
      rw [Grant.ofRole, hbase]
      exact hright
  have hperm := List.reverse_perm phonePolicies
  exact ⟨hperm, (order_makes_no_difference_iff _ phonePolicies).1.2
    (fun field _ => ⟨hmember _ rfl field, hmember _ rfl field⟩) _ hperm⟩

/-- Nobody else can read phone numbers than sales, and whether sales can is up to the policy that
comes last, though no role and field are the same in both policies. -/
theorem not_all_orders_alike :
    ¬ ∀ (keys : List (Option String)) (policies others : List FieldPolicy),
      (policies.map fun p => (p.role, p.field)).Nodup → others.Perm policies →
        resolve (keys.filterMap id) others = resolve (keys.filterMap id) policies := by
  intro h
  have hsame := h [some "sales"] phonePolicies phonePolicies.reverse (by decide)
    (List.reverse_perm _)
  exact absurd hsame (by decide +kernel)

end FieldAccess
end Casework
