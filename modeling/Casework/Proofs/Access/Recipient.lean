/-
  Casework.Proofs.Access.Recipient

  Whom recipients reach. The audience of a notice is written down as a document and read again; what
  is read are the same recipients, whatever texts they hold. They reach the members that they are
  about, in the order of the members: all of them, those with an e-mail address or a user id, those
  with a role, or those with one of some roles. A text that is blank is about nobody.
-/
import Casework.Access.Membership
import Casework.Program.Instruction
import Casework.Proofs.Access.Role
import Casework.Proofs.Access.Sender
import Casework.Proofs.Result

namespace Casework

open Result

-- ============================================================================
-- Roles
-- ============================================================================

namespace Role

/-- The normal form of a role that is given as a text is that of the text. -/
theorem ofJson_text (name : String) : ofJson (.text name) = .ok (normalize name) := by
  rw [ofJson]
  split
  case isTrue hempty =>
    have hname : name = "" := by simpa [Json.truthy] using hempty
    rw [hname]
    rfl
  case isFalse => rfl

/-- The set of roles that texts name. -/
theorem setOfJson_texts (names : List String) :
    setOfJson (names.map .text) = .ok (normalSet names) := by
  have hall : names.mapM (ofJson ∘ Json.text) = .ok (names.map normalize) :=
    mapM_eq_ok_map fun name _ => ofJson_text name
  rw [setOfJson, List.mapM_map, hall, ok_bind, List.filterMap_map]
  rfl

/-- Nothing instead of a role adds none to a set. -/
theorem setOfJson_null (roles : List Json) : setOfJson (.null :: roles) = setOfJson roles := by
  rw [setOfJson, List.mapM_cons, show ofJson .null = .ok none from rfl, ok_bind, setOfJson]
  cases roles.mapM ofJson <;> rfl

/-- A blank text names no role. -/
theorem normalize_of_isBlankText {name : String} (h : Text.isBlankText name) :
    normalize name = none := by
  have hnone : Text.trimChars name.toList = [] := Text.trimChars_eq_nil_iff.2 h
  rw [normalize, normalizeChars, hnone]
  rfl

end Role

-- ============================================================================
-- Members
-- ============================================================================

/-- The names of a member's roles: the first one, and the texts among the further ones. -/
def Membership.roleNames (m : Membership) : List String :=
  m.role.toList ++ ((m.roles.givenItemsOf.toOption.getD []).filterMap Json.text?)

/-- The further roles of a member are texts. -/
def Membership.Readable (m : Membership) : Prop :=
  ∃ names : List String, m.roles.givenItemsOf = .ok (names.map .text)

namespace Audience

/-- Whether a notice to an audience is for a user with an e-mail address and with roles: for
everyone; for the user with this address, in any case, if the text holds a sign of addresses, and
otherwise for the one with this id; for those who hold the role; or for those who hold one of the
roles. -/
def reaches (audience : Audience) (user email : String) (roles : List String) : Bool :=
  match audience with
  | .organization => true
  | .user text =>
    let value := Text.trim text
    value != "" &&
      if value.toList.contains '@' then Text.lower email == Text.lower value else user == value
  | .role name => (Role.normalize name).any (roles.filterMap Role.normalize).contains
  | .groups names => (names.filterMap Role.normalize).any (roles.filterMap Role.normalize).contains

/-- Whether all texts of an audience are blank. The organization needs none. -/
def Blank : Audience → Prop
  | .organization => False
  | .user text => Text.isBlankText text
  | .role name => Text.isBlankText name
  | .groups names => ∀ name ∈ names, Text.isBlankText name

/-- Blank texts are about nobody. -/
theorem not_reaches_of_blank {audience : Audience} (h : audience.Blank) (user email : String)
    (roles : List String) : audience.reaches user email roles = false := by
  cases audience with
  | organization => exact h.elim
  | user text =>
    rw [reaches, Text.trim_eq_empty_iff.2 h]
    rfl
  | role name =>
    rw [reaches, Role.normalize_of_isBlankText h]
    rfl
  | groups names =>
    have hnone : names.filterMap Role.normalize = [] :=
      List.filterMap_eq_nil_iff.2 fun name hname => Role.normalize_of_isBlankText (h name hname)
    rw [reaches, hnone]
    rfl

/-- The recipients that an audience is read as. -/
def recipients : Audience → Recipients
  | .organization => .organization
  | .user text => .user (.text text)
  | .role name => .role (.text name)
  | .groups names => .groups (names.map .text)

/-- A text, or else the empty text, is the text in any case. -/
theorem orElse_empty (text : String) : (Json.text text).orElse (.text "") = .text text := by
  rw [Json.orElse]
  split
  case isTrue => rfl
  case isFalse hempty =>
    have htext : text = "" := by simpa [Json.truthy] using hempty
    rw [htext]

theorem orElse_toJson (audience : Audience) (j : Json) :
    audience.toJson.orElse j = audience.toJson := by
  cases audience <;> rfl

/-- What is written down of an audience is read as its recipients. -/
theorem ofConfig_toJson (audience : Audience) :
    Recipients.ofConfig audience.toJson = .ok audience.recipients := by
  cases audience with
  | organization => rfl
  | user text => exact congrArg (fun j => Except.ok (Recipients.user j)) (orElse_empty text)
  | role name => exact congrArg (fun j => Except.ok (Recipients.role j)) (orElse_empty name)
  | groups names => cases names <;> rfl

end Audience

-- ============================================================================
-- Reached members
-- ============================================================================

/-- Every role of a member is a text. -/
def Member.Readable (m : Member) : Prop := ∃ names : List String, m.roles = names.map .text

/-- The names of the roles of a member. -/
def Member.roleNames (m : Member) : List String := m.role.toList ++ m.roles.filterMap Json.text?

/-- The roles of a member whose data can be read are the normal forms of its names of roles. -/
theorem Member.roleSet_eq {m : Member} (h : m.Readable) :
    m.roleSet = .ok (Role.normalSet m.roleNames) := by
  obtain ⟨names, hnames⟩ := h
  have htexts : m.roles.filterMap Json.text? = names := by
    rw [hnames, List.filterMap_map]
    exact List.filterMap_some
  rw [roleSet, roleNames, htexts, hnames]
  cases m.role with
  | none => rw [Json.optText, Role.setOfJson_null, Role.setOfJson_texts]; rfl
  | some name => exact Role.setOfJson_texts (name :: names)

namespace Recipients

/-- Those are found who hold one of some roles. -/
theorem holding_eq {members : List Member} (h : ∀ m ∈ members, m.Readable) (targets : List String) :
    holding targets members = .ok (members.filter fun m =>
      targets.any (m.roleNames.filterMap Role.normalize).contains) := by
  -- A role is shared, whichever of the two lists is gone through.
  have hshared : ∀ names : List String, (Role.normalSet names).any targets.contains =
      targets.any (names.filterMap Role.normalize).contains := by
    intro names
    rw [Bool.eq_iff_iff, List.any_eq_true, List.any_eq_true]
    simp only [List.contains_iff_mem, Role.mem_normalSet]
    exact exists_congr fun role => and_comm
  rw [holding]
  split
  case isTrue hnone =>
    rw [List.isEmpty_iff.1 hnone]
    simp
  case isFalse =>
    -- All members can be read, so nothing stops the search among them.
    refine filterM_eq_ok_filter fun m hm => ?_
    rw [Member.roleSet_eq (h m hm), ← hshared]
    rfl

/-- The recipients of an audience reach the members that it is for, in their order. -/
theorem resolve_recipients (audience : Audience) {members : List Member}
    (h : ∀ m ∈ members, m.Readable) :
    audience.recipients.resolve members =
      .ok ((members.filter fun m => audience.reaches m.user m.email m.roleNames).map
        Member.user) := by
  cases audience with
  | organization =>
    have hall : members.filter (fun m => Audience.organization.reaches m.user m.email m.roleNames) =
        members := List.filter_eq_self.2 fun _ _ => rfl
    rw [hall]
    rfl
  | user text =>
    -- A text with a sign in it is compared with the mails of the members, another one with their
    -- ids.
    have hnamed : named (Text.trim text) members =
        members.filter fun m => (Audience.user text).reaches m.user m.email m.roleNames := by
      rw [named]
      split
      case isTrue hblank => simp [Audience.reaches, beq_iff_eq.1 hblank]
      case isFalse hfull =>
        have hfull : (Text.trim text != "") = true := by simpa using hfull
        split
        case isTrue hsign => simp only [Audience.reaches, hfull, hsign, if_true, Bool.true_and]
        case isFalse hplain => simp only [Audience.reaches, hfull, hplain, Bool.true_and]; rfl
    rw [← hnamed]
    rfl
  | role name =>
    have hname : Role.ofJson (.text name) = .ok (Role.normalize name) := Role.ofJson_text name
    -- The one role has a normal form, or nobody is reached.
    have hheld : (members.filter fun m =>
        (Role.normalize name).toList.any (m.roleNames.filterMap Role.normalize).contains) =
          members.filter fun m => (Audience.role name).reaches m.user m.email m.roleNames := by
      refine List.filter_congr fun m _ => ?_
      rw [Audience.reaches]
      cases Role.normalize name <;> simp
    rw [Audience.recipients, resolve, hname, ok_bind, holding_eq h, ok_bind, hheld]
    rfl
  | groups names =>
    have hheld : (members.filter fun m =>
        (Role.normalSet names).any (m.roleNames.filterMap Role.normalize).contains) =
          members.filter fun m => (Audience.groups names).reaches m.user m.email m.roleNames := by
      refine List.filter_congr fun m _ => ?_
      rw [Audience.reaches, Bool.eq_iff_iff, List.any_eq_true, List.any_eq_true]
      exact exists_congr fun role => and_congr_left fun _ => Role.mem_normalSet
    rw [Audience.recipients, resolve, Role.setOfJson_texts, ok_bind, holding_eq h, ok_bind, hheld]
    rfl

end Recipients

-- ============================================================================
-- Kept members
-- ============================================================================

/-- Whom a notice is for does not depend on the order of roles, and not on repeats. -/
theorem Audience.reaches_congr (audience : Audience) (user email : String)
    {roles others : List String}
    (h : ∀ name, name ∈ roles ↔ name ∈ others) :
    audience.reaches user email roles = audience.reaches user email others := by
  have hnormal : ∀ role, (roles.filterMap Role.normalize).contains role =
      (others.filterMap Role.normalize).contains role := by
    intro role
    rw [Bool.eq_iff_iff, List.contains_iff_mem, List.contains_iff_mem, List.mem_filterMap,
      List.mem_filterMap]
    exact exists_congr fun name => and_congr_left fun _ => h name
  cases audience with
  | organization | user => rfl
  | role | groups => rw [reaches, reaches, funext hnormal]

namespace Membership

/-- Roles that are texts are a set of texts. -/
theorem foldl_keys (set names : List String) :
    (names.map Key.text).foldl (fun set k => if set.any k.same then set else set ++ [k])
        (set.map Key.text) = (Role.union set names).map Key.text := by
  induction names generalizing set with
  | nil => rfl
  | cons name rest ih =>
    have hknown : (set.map Key.text).any (Key.text name).same = set.contains name := by
      rw [List.any_map, Bool.eq_iff_iff, List.any_eq_true, List.contains_iff_mem]
      simp [Key.same]
    rw [List.map_cons, List.foldl_cons, hknown, Role.union_cons, Role.insert, ← ih]
    split
    · rfl
    · rw [List.map_append]
      rfl

/-- The member that is read from what is kept, if the further roles are texts. -/
def shown (m : Membership) : Member where
  user := m.user
  email := m.email
  role := m.role
  roles := (Role.union [] ((m.roles.givenItemsOf.toOption.getD []).filterMap Json.text?)).map .text

/-- A membership that can be read is taken in as the member that it shows. -/
theorem member_eq {m : Membership} (h : m.Readable) : m.member = .ok m.shown := by
  obtain ⟨names, hnames⟩ := h
  -- The roles are read twice: as keys of a set, and as the texts among them.
  have hkeys : (names.map Json.text).mapM Json.key = .ok (names.map Key.text) := by
    rw [List.mapM_map]
    exact mapM_eq_ok_map fun name _ => rfl
  have htexts : (m.roles.givenItemsOf.toOption.getD []).filterMap Json.text? = names := by
    rw [hnames]
    show (names.map Json.text).filterMap Json.text? = names
    rw [List.filterMap_map]
    exact List.filterMap_some
  have hset : m.roleSet = .ok ((Role.union [] names).map Json.text) := by
    have hfold := foldl_keys [] names
    rw [List.map_nil] at hfold
    rw [roleSet, hnames, ok_bind, hkeys, ok_bind, hfold, List.map_map]
    rfl
  rw [member, hset, shown, htexts]
  rfl

/-- An audience reaches the member that a membership shows exactly if it reaches the membership:
that a role is kept once only makes no difference. -/
theorem reaches_shown (audience : Audience) (m : Membership) :
    audience.reaches m.shown.user m.shown.email m.shown.roleNames =
      audience.reaches m.user m.email m.roleNames := by
  refine audience.reaches_congr _ _ fun name => ?_
  have htexts : m.shown.roles.filterMap Json.text? =
      Role.union [] ((m.roles.givenItemsOf.toOption.getD []).filterMap Json.text?) := by
    rw [shown, List.filterMap_map]
    exact List.filterMap_some
  rw [Member.roleNames, htexts, roleNames, List.mem_append, List.mem_append, Role.mem_union_nil]
  rfl

/-- The kept members that a notice is for, in their order. -/
theorem resolve_member (audience : Audience) {members : List Membership}
    (h : ∀ m ∈ members, m.Readable) :
    members.mapM member = .ok (members.map shown) ∧
      audience.recipients.resolve (members.map shown) =
        .ok ((members.filter fun m => audience.reaches m.user m.email m.roleNames).map user) := by
  refine ⟨mapM_eq_ok_map fun m hm => member_eq (h m hm), ?_⟩
  have hreadable : ∀ m ∈ members.map shown, m.Readable := by
    intro m hm
    obtain ⟨kept, -, rfl⟩ := List.mem_map.1 hm
    exact ⟨_, rfl⟩
  rw [Recipients.resolve_recipients audience hreadable, List.filter_map, List.map_map]
  have hsame : ((fun m : Member => audience.reaches m.user m.email m.roleNames) ∘ shown) =
      fun m => audience.reaches m.user m.email m.roleNames :=
        funext fun m => reaches_shown audience m
  rw [hsame]
  rfl

end Membership
end Casework
