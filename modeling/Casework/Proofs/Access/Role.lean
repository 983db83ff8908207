/-
  Casework.Proofs.Access.Role

  Sets of roles, and the normal forms that are kept in them. Sets are lists without repeats: a union
  keeps what is there and puts the first occurrence of everything else behind it. Nothing that has
  been trimmed and put into lower case changes when that is done again, but what is left of a role
  without its lead is neither trimmed nor asked for a lead again. So the normal form of a role is
  its own exactly if behind the lead there is neither a blank nor another lead.
-/
import Casework.Access.Role
import Casework.Proofs.Text.Lowercase
import Mathlib.Data.List.Nodup

namespace Casework

namespace Role

-- ============================================================================
-- Sets of roles
-- ============================================================================

theorem union_cons (roles : List String) (role : String) (more : List String) :
    union roles (role :: more) = union (insert role roles) more := rfl

/-- A union keeps the roles that are there in front, and adds those that are new, each once, in the
order in which they first come. -/
theorem union_eq_append (roles more : List String) :
    union roles more = roles ++ (more.filter fun r => !roles.contains r).eraseDups := by
  induction more generalizing roles with
  | nil => simp [union]
  | cons role more ih =>
    -- By induction on the roles that are added: the first of them is either known, and dropped on
    -- both sides, or takes its place behind the others.
    rw [union_cons, ih, insert]
    cases hknown : roles.contains role with
    | true => rw [if_pos rfl, List.filter_cons_of_neg (by rw [hknown]; decide)]
    | false =>
      have hrest : ((more.filter fun r => !roles.contains r).filter fun r => !r == role) =
          more.filter fun r => !(roles ++ [role]).contains r := by
        rw [List.filter_filter]
        refine List.filter_congr fun r _ => ?_
        have hboth : (roles ++ [role]).contains r = (roles.contains r || r == role) := by
          rw [List.contains_append, List.contains_cons, List.contains_nil, Bool.or_false]
        rw [hboth, Bool.not_or, Bool.and_comm]
      rw [if_neg (by decide), List.filter_cons_of_pos (by rw [hknown]; rfl),
        List.eraseDups_cons, hrest,
        List.append_assoc, List.singleton_append]

theorem union_nil (roles : List String) : union [] roles = roles.eraseDups := by
  rw [union_eq_append, List.nil_append]
  exact congrArg List.eraseDups (List.filter_eq_self.2 fun _ _ => rfl)

/-- The members of a union are those of either list. -/
theorem mem_union {role : String} {roles more : List String} :
    role ∈ union roles more ↔ role ∈ roles ∨ role ∈ more := by
  rw [union_eq_append, List.mem_append, List.mem_eraseDups, List.mem_filter]
  by_cases hknown : role ∈ roles <;> simp [hknown]

theorem mem_union_nil {role : String} {roles : List String} :
    role ∈ union [] roles ↔ role ∈ roles := by
  rw [union_nil, List.mem_eraseDups]

theorem mem_normalSet {role : String} {names : List String} :
    role ∈ normalSet names ↔ role ∈ names.filterMap normalize := mem_union_nil

/-- A union has no role twice if the first list has none. -/
theorem nodup_union {roles : List String} (h : roles.Nodup) (more : List String) :
    (union roles more).Nodup := by
  induction more generalizing roles with
  | nil => exact h
  | cons role more ih =>
    rw [union_cons]
    refine ih ?_
    rw [insert]
    split
    case isTrue => exact h
    case isFalse hnew =>
      rw [List.nodup_append]
      refine ⟨h, List.nodup_singleton _, fun a ha b hb hab => ?_⟩
      obtain rfl := List.mem_singleton.1 hb
      exact hnew (List.contains_iff_mem.2 (hab ▸ ha))

/-- A list without repeats is the set that it makes up. -/
theorem union_nil_of_nodup {roles : List String} (h : roles.Nodup) : union [] roles = roles := by
  rw [union_nil]
  induction roles with
  | nil => rfl
  | cons role rest ih =>
    obtain ⟨hnew, hrest⟩ := List.nodup_cons.1 h
    have hkept : rest.filter (fun r => !r == role) = rest := by
      rw [List.filter_eq_self]
      intro r hr
      have hne : r ≠ role := fun heq => hnew (heq ▸ hr)
      simpa using hne
    rw [List.eraseDups_cons, hkept, ih hrest]

-- ============================================================================
-- Characters of a normal form
-- ============================================================================

/-- What is left of a role that begins with the lead; any other one is only trimmed and
lower-cased. -/
theorem normalizeChars_cases (cs : List Char) :
    (Text.lowerChars (Text.trimChars cs) = lead ++ normalizeChars cs) ∨
      ¬ lead <+: Text.lowerChars (Text.trimChars cs) ∧
        normalizeChars cs = Text.lowerChars (Text.trimChars cs) := by
  rw [normalizeChars]
  split
  case isTrue h =>
    obtain ⟨rest, hrest⟩ := List.isPrefixOf_iff_prefix.1 h
    exact .inl (by rw [← hrest, List.drop_left])
  case isFalse h => exact .inr ⟨fun hlead => h (List.isPrefixOf_iff_prefix.2 hlead), rfl⟩

/-- Every character of a normal form is in lower case. -/
theorem isLower_of_mem_normalizeChars {cs : List Char} {c : Char} (h : c ∈ normalizeChars cs) :
    Text.isLower c := by
  have hlowered : c ∈ Text.lowerChars (Text.trimChars cs) := by
    rcases normalizeChars_cases cs with hcs | ⟨-, hcs⟩
    · rw [hcs]
      exact List.mem_append_right _ h
    · rwa [← hcs]
  exact Text.isLower_of_mem_lowerFrom hlowered

/-- Characters in lower case are a normal form exactly if they are trimmed and without a lead. -/
theorem normalizeChars_eq_self_iff {cs : List Char} (h : ∀ c ∈ cs, Text.isLower c) :
    normalizeChars cs = cs ↔ Text.Trimmed cs ∧ ¬ lead <+: cs := by
  have hlower : Text.lowerChars (Text.trimChars cs) = Text.trimChars cs :=
    Text.lowerFrom_of_isLower (fun c hc => h c ((Text.trimChars_sublist cs).subset hc)) []
  have hcases := normalizeChars_cases cs
  rw [hlower] at hcases
  have hshorter := (Text.trimChars_sublist cs).length_le
  constructor
  -- The lead is cut off at most once, and what is left is trimmed: the two ways of
  -- `normalizeChars_cases`.
  · intro hself
    rw [hself] at hcases
    rcases hcases with hlead | ⟨hlead, htrim⟩
    · -- The lead would have to be lost without a change.
      have hlonger := congrArg List.length hlead
      rw [List.length_append] at hlonger
      have : 0 < lead.length := by decide
      omega
    · rw [← htrim] at hlead
      exact ⟨htrim ▸ Text.trimmed_trimChars cs, hlead⟩
  · rintro ⟨htrim, hlead⟩
    rw [htrim.trimChars_eq] at hcases
    rcases hcases with hcs | ⟨-, hcs⟩
    · exact absurd ⟨_, hcs.symm⟩ hlead
    · exact hcs

-- ============================================================================
-- Normal forms taken again
-- ============================================================================

/-- The role, but for its case and the blanks around it, has a lead with a blank or another lead
behind it. -/
def Stutters (role : String) : Prop :=
  ∃ rest, Text.lowerChars (Text.trimChars role.toList) = lead ++ rest ∧
    ((∃ c ∈ rest.head?, Text.isBlank c = true) ∨ lead <+: rest)

theorem stutters_iff {role : String} {rest : List Char}
    (h : Text.lowerChars (Text.trimChars role.toList) = lead ++ rest) :
    Stutters role ↔ (∃ c ∈ rest.head?, Text.isBlank c = true) ∨ lead <+: rest := by
  constructor
  · rintro ⟨behind, hbehind, hstutters⟩
    obtain rfl := List.append_cancel_left (h.symm.trans hbehind)
    exact hstutters
  · exact fun hstutters => ⟨rest, h, hstutters⟩

/-- To take the normal form twice makes no difference exactly if the role does not stutter. -/
theorem normalizeChars_normalizeChars_iff {role : String} :
    normalizeChars (normalizeChars role.toList) = normalizeChars role.toList ↔ ¬ Stutters role := by
  have htrimmed := (Text.trimmed_trimChars role.toList).lowerChars
  rw [normalizeChars_eq_self_iff fun _ hc => isLower_of_mem_normalizeChars hc]
  rcases normalizeChars_cases role.toList with hlead | ⟨hlead, hplain⟩
  · rw [hlead] at htrimmed
    rw [stutters_iff hlead, not_or, htrimmed.right_iff]
    refine and_congr_left fun _ => ?_
    simp
  · have hnot : ¬ Stutters role := fun ⟨rest, hrest, _⟩ => hlead ⟨rest, hrest.symm⟩
    rw [hplain]
    exact iff_of_true ⟨htrimmed, hlead⟩ hnot

/-- A role has no normal form if nothing is left of it. -/
theorem normalize_eq_none_iff {role : String} :
    normalize role = none ↔ normalizeChars role.toList = [] := by
  rw [normalize]
  cases normalizeChars role.toList <;> simp

/-- The normal form of a role is the text of what is left of it, which is not empty. -/
theorem normalize_eq_some_iff {role name : String} :
    normalize role = some name ↔ name ≠ "" ∧ normalizeChars role.toList = name.toList := by
  rw [normalize]
  cases hchars : normalizeChars role.toList with
  | nil =>
    refine iff_of_false (by simp) ?_
    rintro ⟨hname, hnil⟩
    exact hname (String.toList_eq_nil_iff.1 hnil.symm)
  | cons c rest =>
    show some (String.ofList (c :: rest)) = some name ↔ _
    rw [Option.some_inj]
    constructor
    · rintro rfl
      exact ⟨fun hempty => List.cons_ne_nil c rest (String.ofList_eq_empty_iff.1 hempty),
        String.toList_ofList.symm⟩
    · rintro ⟨-, hname⟩
      rw [hname, String.ofList_toList]

/-- The normal form of a role is its own exactly if the role does not stutter. -/
theorem normalize_bind_normalize_iff {role : String} :
    (normalize role).bind normalize = normalize role ↔ ¬ Stutters role := by
  rw [← normalizeChars_normalizeChars_iff]
  cases hrole : normalize role with
  | none =>
    rw [normalize_eq_none_iff.1 hrole]
    exact iff_of_true rfl rfl
  | some name =>
    obtain ⟨hname, hchars⟩ := normalize_eq_some_iff.1 hrole
    rw [hchars, Option.bind_some, normalize_eq_some_iff]
    exact and_iff_right hname

end Role

-- ============================================================================
-- Base roles
-- ============================================================================

/-- A base role is found by its own word, and by no other. -/
theorem BaseRole.ofWord?_eq_some_iff {word : String} {base : BaseRole} :
    ofWord? word = some base ↔ word = base.word := by
  constructor
  · intro h
    unfold ofWord? at h
    split at h <;> cases h <;> rfl
  · rintro rfl
    cases base <;> rfl

/-- The base roles of administrators are those of owners and admins. -/
theorem Role.isAdmin_iff {role : Option String} :
    isAdmin role = true ↔ BaseRole.of? role = some .owner ∨ BaseRole.of? role = some .admin := by
  rw [isAdmin]
  cases BaseRole.of? role with
  | none => simp
  | some base => cases base <;> simp

end Casework
