/-
  Casework.Proofs.Access.Sender

  The addresses that an organization may have. Addresses are kept in normal form, and the normal
  form of one is itself; so what was kept is read back as it is, and an address is among the allowed
  ones exactly if it has the normal form of one that was submitted. A list is taken exactly if it is
  short enough and every address in it has the form of one.
-/
import Casework.Access.Sender
import Casework.Proofs.Access.Role
import Casework.Proofs.Result
import Casework.Proofs.Text.Lowercase

namespace Casework.Sender

-- ============================================================================
-- Normal forms
-- ============================================================================

theorem normalize_eq (s : String) : normalize s = Text.lower (Text.trim s) := by
  rw [normalize, Text.lower, Text.trim, String.toList_ofList]

theorem trimmed_normalize (s : String) : Text.Trimmed (normalize s).toList := by
  rw [normalize, String.toList_ofList]
  exact (Text.trimmed_trimChars _).lowerChars

/-- The normal form of an address is its own normal form. -/
theorem normalize_normalize (s : String) : normalize (normalize s) = normalize s := by
  rw [normalize, (trimmed_normalize s).trimChars_eq, normalize, String.toList_ofList,
    Text.lowerChars_lowerChars]

theorem normalize_trim (s : String) : normalize (Text.trim s) = normalize s := by
  rw [normalize, Text.trim, String.toList_ofList,
    (Text.trimmed_trimChars _).trimChars_eq, normalize]

/-- Of a text nothing is left in normal form exactly if it is blank. -/
theorem normalize_eq_empty_iff {s : String} : normalize s = "" ↔ Text.isBlankText s := by
  rw [normalize, String.ofList_eq_empty_iff, Text.lowerChars, Text.lowerFrom_eq_nil_iff,
    Text.trimChars_eq_nil_iff, Text.isBlankText]

-- ============================================================================
-- Lists of addresses
-- ============================================================================

/-- The texts among the items of a list that are not blank, trimmed and in lower case, each of them
where it first occurs. -/
def cleaned (items : List Json) : List String :=
  (((items.filterMap Json.text?).filter fun s => !Text.isBlankText s).map fun s =>
    Text.lower (Text.trim s)).eraseDups

/-- An address that comes several times is kept where it comes first. -/
theorem dedup_eq (addresses : List String) : dedup addresses = addresses.eraseDups :=
  Role.union_nil addresses

/-- From a list the addresses are taken as `cleaned` says: texts that are not blank, in normal form,
each once. -/
theorem sanitize_list (items : List Json) : sanitize (.list items) = cleaned items := by
  have hitem : ∀ s : String,
      (let address := normalize s; if address == "" then none else some address) =
        if !Text.isBlankText s then some (Text.lower (Text.trim s)) else none := by
    intro s
    have hempty : (normalize s == "") = Text.isBlankText s := by
      rw [Bool.eq_iff_iff, beq_iff_eq, normalize_eq_empty_iff]
    show (if normalize s == "" then none else some (normalize s)) = _
    rw [hempty, ← normalize_eq]
    cases Text.isBlankText s <;> rfl
  rw [sanitize, dedup_eq, cleaned, ← List.filterMap_eq_map, List.filterMap_filter]
  exact congrArg List.eraseDups (List.filterMap_congr fun s _ => hitem s)

/-- The addresses of a list are the normal forms of its texts that are not blank. -/
theorem mem_cleaned {items : List Json} {address : String} :
    address ∈ cleaned items ↔
      ∃ s, .text s ∈ items ∧ Text.isBlankText s = false ∧ normalize s = address := by
  have htext : ∀ s, s ∈ items.filterMap Json.text? ↔ Json.text s ∈ items := by
    intro s
    rw [List.mem_filterMap]
    constructor
    · rintro ⟨item, hitem, hs⟩
      cases item <;> cases hs
      exact hitem
    · exact fun hs => ⟨_, hs, rfl⟩
  rw [cleaned, List.mem_eraseDups, List.mem_map]
  refine exists_congr fun s => ?_
  rw [List.mem_filter, htext, Bool.not_eq_true', normalize_eq, and_assoc]

theorem nodup_cleaned (items : List Json) : (cleaned items).Nodup := by
  rw [cleaned, ← Role.union_nil]
  exact Role.nodup_union List.nodup_nil _

/-- What was cleaned is read back as it is. -/
theorem sanitize_cleaned (items : List Json) :
    sanitize (.texts (cleaned items)) = cleaned items := by
  -- All addresses are their own normal forms, none is blank, and all are texts: so every stage of
  -- cleaning leaves them as they are.
  have hnormal : ∀ a ∈ cleaned items, Text.lower (Text.trim a) = a := by
    intro a ha
    obtain ⟨s, -, -, rfl⟩ := mem_cleaned.1 ha
    rw [← normalize_eq, normalize_normalize]
  have hfull : ∀ a ∈ cleaned items, (!Text.isBlankText a) = true := by
    intro a ha
    obtain ⟨s, -, hs, rfl⟩ := mem_cleaned.1 ha
    rw [Bool.not_eq_true', ← Bool.not_eq_true, ← normalize_eq_empty_iff, normalize_normalize,
      normalize_eq_empty_iff, hs]
    decide
  have htexts : ((cleaned items).map Json.text).filterMap Json.text? = cleaned items := by
    rw [List.filterMap_map]
    exact List.filterMap_some
  rw [Json.texts, sanitize_list, cleaned, htexts, List.filter_eq_self.2 hfull,
    List.map_congr_left hnormal, List.map_id', ← Role.union_nil,
    Role.union_nil_of_nodup (nodup_cleaned items)]

/-- An address is among the cleaned ones if it is one of the items but for blanks around it and its
case. -/
theorem isAllowed_cleaned {items : List Json} {address : String}
    (h : Text.isBlankText address = false) :
    isAllowed (cleaned items) (Text.trim address) ↔
      ∃ s, .text s ∈ items ∧ Text.lower (Text.trim s) = Text.lower (Text.trim address) := by
  rw [isAllowed, List.contains_iff_mem, normalize_trim, mem_cleaned]
  refine exists_congr fun s => and_congr_right fun _ => ?_
  rw [← normalize_eq, ← normalize_eq]
  refine and_iff_right_of_imp fun hsame => ?_
  rw [← Bool.not_eq_true, ← normalize_eq_empty_iff, hsame, normalize_eq_empty_iff, h]
  decide

-- ============================================================================
-- The form of an address
-- ============================================================================

/-- The form of an address: a part before the sign and a part behind it that has a point between
others, without blanks and without another sign. -/
def Formed (address : String) : Prop :=
  ∃ user domain suffix : List Char,
    address.toList = user ++ '@' :: (domain ++ '.' :: suffix) ∧
      user ≠ [] ∧ domain ≠ [] ∧ suffix ≠ [] ∧ ∀ c ∈ user ++ domain ++ suffix, isAddressChar c

/-- The parts of an address are made of all characters but blanks and the sign. -/
theorem isAddressChar_iff {c : Char} : isAddressChar c ↔ Text.isBlank c = false ∧ c ≠ '@' := by
  rw [isAddressChar, Bool.and_eq_true, Bool.not_eq_true', bne_iff_ne]

/-- A well-formed address has no blank in it. -/
theorem Formed.not_blank {address : String} (h : Formed address) :
    ∀ c ∈ address.toList, Text.isBlank c = false := by
  obtain ⟨user, domain, suffix, hform, -, -, -, hparts⟩ := h
  intro c hc
  rw [hform] at hc
  have hcases : c ∈ user ++ domain ++ suffix ∨ c = '@' ∨ c = '.' := by
    simp only [List.mem_append, List.mem_cons] at hc ⊢
    tauto
  rcases hcases with hpart | rfl | rfl
  · exact (isAddressChar_iff.1 (hparts c hpart)).1
  · decide
  · decide

/-- An address has exactly one sign. -/
theorem Formed.count_sign {address : String} (h : Formed address) :
    address.toList.count '@' = 1 := by
  obtain ⟨user, domain, suffix, hform, -, -, -, hparts⟩ := h
  have hnone : (user ++ domain ++ suffix).count '@' = 0 :=
    List.count_eq_zero.2 fun hsign => (isAddressChar_iff.1 (hparts _ hsign)).2 rfl
  rw [List.count_append, List.count_append] at hnone
  rw [hform, List.count_append, List.count_cons_self, List.count_append,
    List.count_cons_of_ne (by decide)]
  omega

/-- An inner point stands between two texts that are not empty. -/
theorem hasInnerPoint_iff {cs : List Char} :
    hasInnerPoint cs ↔ ∃ domain suffix, cs = domain ++ '.' :: suffix ∧ domain ≠ [] ∧
      suffix ≠ [] := by
  cases cs with
  | nil => simp [hasInnerPoint]
  | cons c rest =>
    rw [hasInnerPoint, List.contains_iff_mem]
    constructor
    -- The point is found among the characters that are neither first nor last; both ends are left
    -- over for the two parts.
    · intro hpoint
      obtain ⟨before, behind, hsplit⟩ := List.append_of_mem hpoint
      have hrest : rest ≠ [] := by
        rintro rfl
        cases hpoint
      have hwhole : rest = before ++ '.' :: (behind ++ [rest.getLast hrest]) := by
        conv_lhs => rw [← List.dropLast_append_getLast hrest, hsplit, List.append_assoc,
          List.cons_append]
      exact ⟨c :: before, behind ++ [rest.getLast hrest], congrArg (c :: ·) hwhole,
        List.cons_ne_nil _ _,
        by simp⟩
    · rintro ⟨domain, suffix, hsplit, hdomain, hsuffix⟩
      cases domain with
      | nil => exact absurd rfl hdomain
      | cons d domain =>
        obtain rfl : rest = domain ++ '.' :: suffix := (List.cons.inj hsplit).2
        rw [List.dropLast_append_of_ne_nil (List.cons_ne_nil _ _),
          List.dropLast_cons_of_ne_nil hsuffix]
        exact List.mem_append_right _ List.mem_cons_self

/-- What is an address if what stands before the sign has neither blanks nor another sign, and no
line break at the end has to be passed over. -/
theorem isAddress_append {user host : List Char} (huser : ∀ c ∈ user, isAddressChar c)
    (hlast : host.getLast? ≠ some '\n') :
    isAddress (user ++ '@' :: host) =
      (!user.isEmpty && host.all isAddressChar && hasInnerPoint host) := by
  have htake : (user ++ '@' :: host).takeWhile isAddressChar = user := by
    rw [List.takeWhile_append_of_pos huser, List.takeWhile_cons_of_neg (by decide), List.append_nil]
  have hend : (host.getLast? == some '\n') = false := by simpa using hlast
  simp only [isAddress, htake, List.drop_left, hend, Bool.false_eq_true, if_false]

/-- What passes for an address has a sign, and only proper characters before the first one. -/
theorem exists_of_isAddress {cs : List Char} (h : isAddress cs) :
    ∃ user host, cs = user ++ '@' :: host ∧ ∀ c ∈ user, isAddressChar c := by
  have hsplit : cs = cs.takeWhile isAddressChar ++ cs.drop (cs.takeWhile isAddressChar).length :=
    (List.prefix_iff_eq_append.1 (List.takeWhile_prefix isAddressChar)).symm
  simp only [isAddress] at h
  split at h
  next host hdrop =>
    rw [hdrop] at hsplit
    exact ⟨_, host, hsplit, fun c hc => List.mem_takeWhile_imp hc⟩
  next => cases h

/-- What has no blanks around it is an address exactly if it has the form of one. -/
theorem isAddress_iff {address : String} (h : Text.Trimmed address.toList) :
    isAddress address.toList ↔ Formed address := by
  -- The search allows a line break at the very end; a trimmed text has none there.
  have hlast : ∀ user host, address.toList = user ++ '@' :: host → host.getLast? ≠ some '\n' := by
    intro user host hsplit hbreak
    have hend : '\n' ∈ address.toList.getLast? := by
      rw [hsplit, List.getLast?_append, List.getLast?_cons, hbreak]
      rfl
    exact absurd (h.last _ hend) (by decide)
  constructor
  · intro haddress
    obtain ⟨user, host, hsplit, huser⟩ := exists_of_isAddress haddress
    rw [hsplit, isAddress_append huser (hlast _ _ hsplit), Bool.and_eq_true, Bool.and_eq_true,
      List.all_eq_true, hasInnerPoint_iff] at haddress
    obtain ⟨⟨hfull, hhost⟩, domain, suffix, rfl, hdomain, hsuffix⟩ := haddress
    -- The characters of the host are those of the domain, the point, and the suffix.
    refine ⟨user, domain, suffix, hsplit, by simpa using hfull, hdomain, hsuffix, fun c hc => ?_⟩
    rw [List.append_assoc, List.mem_append] at hc
    rcases hc with hc | hc
    · exact huser c hc
    · refine hhost c ?_
      simp only [List.mem_append, List.mem_cons] at hc ⊢
      tauto
  · rintro ⟨user, domain, suffix, hsplit, huser, hdomain, hsuffix, hparts⟩
    have hhost : ∀ c ∈ domain ++ '.' :: suffix, isAddressChar c := by
      intro c hc
      rcases List.mem_append.1 hc with hc | hc
      · exact hparts c (by simp [hc])
      · rcases List.mem_cons.1 hc with rfl | hc
        · decide
        · exact hparts c (by simp [hc])
    rw [hsplit, isAddress_append (fun c hc => hparts c (by simp [hc])) (hlast _ _ hsplit),
      Bool.and_eq_true, Bool.and_eq_true, List.all_eq_true, hasInnerPoint_iff]
    exact ⟨⟨by simpa using huser, hhost⟩, domain, suffix, rfl, hdomain, hsuffix⟩

-- ============================================================================
-- Submitted lists
-- ============================================================================

/-- A list is taken if its addresses are few enough and every one has the form of one. -/
theorem submit_eq_ok_iff {j : Json} {addresses : List String} :
    submit j = .ok addresses ↔
      ∃ items, j = .list items ∧ addresses = cleaned items ∧ addresses.length ≤ limit ∧
        ∀ a ∈ addresses, Formed a := by
  cases j with
  | list items =>
    -- The addresses are trimmed, so the search tells which of them are well-formed.
    have hformed : ∀ a ∈ cleaned items, (isAddress a.toList ↔ Formed a) := by
      intro a ha
      obtain ⟨s, -, -, rfl⟩ := mem_cleaned.1 ha
      exact isAddress_iff (trimmed_normalize s)
    have hnone : ((cleaned items).find? fun a => !isAddress a.toList) = none ↔
        ∀ a ∈ cleaned items, Formed a := by
      rw [List.find?_eq_none]
      exact forall₂_congr fun a ha => by rw [← hformed a ha]; simp
    simp only [submit, sanitize_list, Json.list.injEq, exists_eq_left']
    split
    -- Too many addresses.
    case isTrue hmany =>
      refine iff_of_false (by simp) ?_
      rintro ⟨rfl, hfew, -⟩
      omega
    case isFalse hfew =>
      split
      -- One of them is malformed.
      next a hfound =>
        refine iff_of_false (by simp) ?_
        rintro ⟨rfl, -, hall⟩
        rw [hnone.2 hall] at hfound
        cases hfound
      next hfound =>
        rw [Except.ok.injEq, eq_comm]
        exact ⟨fun h => ⟨h, h ▸ Nat.not_lt.1 hfew, h ▸ hnone.1 hfound⟩, And.left⟩
  | null | bool | number | text | object => simp [submit]

end Casework.Sender
