/-
  Casework.Proofs.Template.FriendlyKey

  When friendly keys tell variables apart. The key of a variable is the words of its name, numbered
  by the variables with the same words before it. Words and number of a numbered key can be read off
  it, for there are digits only behind its last underscore; so two numbered keys are of different
  variables. But a numbered key can be the words of another name, for numbering looks at equal words
  alone.
-/
import Casework.Proofs.Program.Variables
import Mathlib.Data.List.Nodup

namespace Casework

namespace Entries

variable {α : Type}

/-- A new name goes to the end of the list. -/
theorem putList_of_not_mem {name : String} {pairs : List (String × α)} (value : α)
    (h : name ∉ pairs.map Prod.fst) : putList name value pairs = pairs ++ [(name, value)] := by
  induction pairs with
  | nil => rfl
  | cons pair rest ih =>
    rw [List.map_cons, List.mem_cons, not_or] at h
    rw [putList, if_neg (by simpa using Ne.symm h.1), ih h.2, List.cons_append]

/-- Names without repetition are put at the end, in their order. -/
theorem toList_putAll_of_nodup {entries : Entries α} {pairs : List (String × α)}
    (h : (entries.toList ++ pairs).map Prod.fst |>.Nodup) :
    (entries.putAll pairs).toList = entries.toList ++ pairs := by
  induction pairs generalizing entries with
  | nil => rw [putAll_nil, List.append_nil]
  | cons pair rest ih =>
    have hsplit : entries.toList ++ pair :: rest = entries.toList ++ [pair] ++ rest := by simp
    rw [hsplit] at h ⊢
    have hnew : pair.1 ∉ entries.toList.map Prod.fst := by
      have hfront := (List.nodup_append.1 (List.map_append ▸ h)).1
      rw [List.map_append, List.nodup_append] at hfront
      exact fun hmem => hfront.2.2 _ hmem _ (List.mem_singleton_self _) rfl
    have hput : (entries.put pair.1 pair.2).toList = entries.toList ++ [pair] :=
      putList_of_not_mem pair.2 hnew
    rw [putAll_cons, ih (hput ▸ h), hput]

/-- Pairs under different names are kept as they are. -/
theorem toList_ofList_of_nodup {pairs : List (String × α)} (h : (pairs.map Prod.fst).Nodup) :
    (ofList pairs).toList = pairs := by
  show (empty.putAll pairs).toList = empty.toList ++ pairs
  exact toList_putAll_of_nodup h

/-- Under different names the values are those that are found there. -/
theorem map_get?_names {entries : Entries α} (h : entries.names.Nodup) :
    entries.names.map entries.get? = entries.toList.map fun pair => some pair.2 := by
  obtain ⟨pairs⟩ := entries
  show (pairs.map Prod.fst).map (pairs.lookup ·) = pairs.map fun pair => some pair.2
  replace h : (pairs.map Prod.fst).Nodup := h
  induction pairs with
  | nil => rfl
  | cons pair rest ih =>
    obtain ⟨hnew, hrest⟩ := List.nodup_cons.1 h
    rw [List.map_cons, List.map_cons, List.map_cons, List.lookup_cons_self, ← ih hrest]
    refine congrArg (some pair.2 :: ·) (List.map_congr_left fun name hname => ?_)
    have hne : (name == pair.1) = false := beq_eq_false_iff_ne.2 fun hsame => hnew (hsame ▸ hname)
    rw [List.lookup_cons, hne]

end Entries

namespace Template

-- ============================================================================
-- Words and numbers
-- ============================================================================

/-- Words in order, each with how often it was there before, when the words `seen` come before
them. -/
def ranks (seen : List String) : List String → List (String × Nat)
  | [] => []
  | base :: rest => (base, seen.count base) :: ranks (base :: seen) rest

/-- The keys are the bases, each numbered by how often it occurred before. -/
theorem map_snd_keysAfter (seen : List String) (vars : List (String × String)) :
    (keysAfter seen vars).map Prod.snd =
      (ranks seen (bases vars)).map fun rank => numberedKey rank.1 rank.2 := by
  induction vars generalizing seen with
  | nil => rfl
  | cons v rest ih =>
    obtain ⟨id, name⟩ := v
    have hbases : bases ((id, name) :: rest) = keyBase name :: bases rest := List.map_cons
    rw [keysAfter, List.map_cons, ih, hbases, ranks, List.map_cons]

/-- Words are numbered without gaps, from where they were before. -/
theorem mem_ranks {seen words : List String} {base : String} {n : Nat} :
    (base, n) ∈ ranks seen words ↔ seen.count base ≤ n ∧
      n < seen.count base + words.count base := by
  induction words generalizing seen with
  | nil => simp [ranks]
  | cons word rest ih =>
    rw [ranks, List.mem_cons, ih, Prod.mk.injEq]
    by_cases hword : base = word
    · subst hword
      rw [List.count_cons_self, List.count_cons_self, eq_self, true_and]
      omega
    · rw [List.count_cons_of_ne (Ne.symm hword), List.count_cons_of_ne (Ne.symm hword)]
      simp [hword]

/-- No base has the same rank twice. -/
theorem nodup_ranks (seen words : List String) : (ranks seen words).Nodup := by
  induction words generalizing seen with
  | nil => exact List.nodup_nil
  | cons word rest ih =>
    rw [ranks, List.nodup_cons]
    refine ⟨fun hmem => ?_, ih _⟩
    rw [mem_ranks, List.count_cons_self] at hmem
    omega

-- ============================================================================
-- Keys
-- ============================================================================

theorem numberedKey_zero (base : String) : numberedKey base 0 = base := rfl

/-- The digits behind the last underscore of a text. -/
theorem takeWhile_reverse_append {front digits : List Char} (h : '_' ∉ digits) :
    (front ++ '_' :: digits).reverse.takeWhile (· != '_') = digits.reverse := by
  have hdigits : ∀ c ∈ digits.reverse, (c != '_') = true := by
    intro c hc
    rw [bne_iff_ne]
    rintro rfl
    exact h (List.mem_reverse.1 hc)
  rw [List.reverse_append, List.reverse_cons, List.append_assoc, List.singleton_append,
    List.takeWhile_append_of_pos hdigits, List.takeWhile_cons_of_neg (by decide), List.append_nil]

/-- Words and number can be read off a numbered key. -/
theorem numberedKey_succ_inj {base base' : String} {m n : Nat}
    (h : numberedKey base (m + 1) = numberedKey base' (n + 1)) : base = base' ∧ m = n := by
  have hlist := congrArg String.toList h
  rw [toList_numberedKey_succ, toList_numberedKey_succ] at hlist
  have hdigits : Nat.toDigits 10 (m + 2) = Nat.toDigits 10 (n + 2) := by
    have hends := congrArg (fun cs => cs.reverse.takeWhile (· != '_')) hlist
    rw [takeWhile_reverse_append Nat.underscore_not_in_toDigits,
      takeWhile_reverse_append Nat.underscore_not_in_toDigits] at hends
    exact List.reverse_injective hends
  rw [hdigits] at hlist
  have hbase : base = base' := String.toList_injective (List.append_cancel_right hlist)
  subst hbase
  exact ⟨rfl, Nat.succ.inj (numberedKey_injective base h)⟩

/-- Keys are different from each other exactly if no numbered key is the words of another name. -/
theorem nodup_keys_iff (words : List String) :
    ((ranks [] words).map fun rank => numberedKey rank.1 rank.2).Nodup ↔
      ∀ base count, 0 < count → count < words.count base → numberedKey base count ∉ words := by
  rw [List.nodup_map_iff_inj_on (nodup_ranks [] words)]
  have hmem : ∀ {base n}, (base, n) ∈ ranks [] words ↔ n < words.count base := by
    intro base n
    rw [mem_ranks, List.count_nil, Nat.zero_add]
    exact and_iff_right (Nat.zero_le n)
  constructor
  -- A numbered key that is a base of its own meets the key of that base's first occurrence.
  · intro hinj base count hpos hcount hword
    have hplain : (numberedKey base count, 0) ∈ ranks [] words :=
      hmem.2 (List.count_pos_iff.2 hword)
    have hsame := hinj _ (hmem.2 hcount) _ hplain (numberedKey_zero _).symm
    have hzero : count = 0 := congrArg Prod.snd hsame
    omega
  · rintro hfree ⟨base, m⟩ hm ⟨base', n⟩ hn hkeys
    have hword : ∀ {base n}, (base, n) ∈ ranks [] words → base ∈ words := fun h =>
      List.count_pos_iff.1 (Nat.zero_lt_of_lt (hmem.1 h))
    -- Equal keys are both plain, or both numbered with the same base and number.
    cases m with
    | zero =>
      cases n with
      | zero => exact congrArg (·, 0) hkeys
      | succ n => exact absurd (hkeys ▸ hword hm) (hfree base' (n + 1) n.succ_pos (hmem.1 hn))
    | succ m =>
      cases n with
      | zero => exact absurd (hkeys ▸ hword hn) (hfree base (m + 1) m.succ_pos (hmem.1 hm))
      | succ n =>
        obtain ⟨rfl, rfl⟩ := numberedKey_succ_inj hkeys
        rfl

-- ============================================================================
-- The keys of custom variables
-- ============================================================================

/-- The words of the names of the custom variables of a list. -/
def customBases (vars : List Variable) : List String :=
  (vars.filter Variable.isCustom).map fun v => keyBase v.name

section Keys

variable {vars : List Variable} (h : (vars.map Variable.id).Nodup)

include h

/-- The keys of the custom variables stand in the order of the variables. -/
theorem toList_keysOf :
    (keysOf vars).toList =
      keysAfter [] ((vars.filter Variable.isCustom).map fun v => (v.id, v.name)) := by
  have hids : ((vars.filter Variable.isCustom).map Variable.id).Nodup :=
    h.sublist (List.filter_sublist.map _)
  refine Entries.toList_ofList_of_nodup ?_
  rwa [map_fst_keysAfter, List.map_map]

/-- Every custom variable has a key. -/
theorem names_keysOf : (keysOf vars).names = (vars.filter Variable.isCustom).map Variable.id := by
  rw [Entries.names, toList_keysOf h, map_fst_keysAfter, List.map_map]
  rfl

/-- Every custom variable has a key. The keys are different from each other exactly if no numbered
key is the words of the name of another custom variable. -/
theorem keysOf_nodup_iff :
    (keysOf vars).names = (vars.filter Variable.isCustom).map Variable.id ∧
      (((keysOf vars).toList.map Prod.snd).Nodup ↔
        ∀ base count, 0 < count → count < (customBases vars).count base →
          numberedKey base count ∉ customBases vars) := by
  have hbases : bases ((vars.filter Variable.isCustom).map fun v => (v.id, v.name)) =
      customBases vars := by
    simp only [bases, List.map_map, customBases, Function.comp_def]
  rw [toList_keysOf h, map_snd_keysAfter, hbases]
  exact ⟨names_keysOf h, nodup_keys_iff _⟩

end Keys

/-- Custom variables of some names, under the ids `a`, `b` and `c`. -/
def customNamed (first second third : String) : List Variable :=
  [("a", first), ("b", second), ("c", third)].map fun (id, name) =>
    ⟨id, name, "text", ⟨[("type", .text "custom")]⟩⟩

theorem keysOf_nodup_budgets :
    ((customNamed "Deal Budget" "deal budget" "Deal").map Variable.id).Nodup ∧
      ((keysOf (customNamed "Deal Budget" "deal budget" "Deal")).toList.map Prod.snd).Nodup := by
  have hids : ((customNamed "Deal Budget" "deal budget" "Deal").map Variable.id).Nodup := by decide
  have hbases : customBases (customNamed "Deal Budget" "deal budget" "Deal") =
      ["deal_budget", "deal_budget", "deal"] := by decide +kernel
  refine ⟨hids, (keysOf_nodup_iff hids).2.2 fun base count hpos hcount => ?_⟩
  rw [hbases] at hcount ⊢
  have hword : base = "deal_budget" ∨ base = "deal" := by
    simpa using List.count_pos_iff.1 (Nat.zero_lt_of_lt hcount)
  rcases hword with rfl | rfl
  · have htwice : ["deal_budget", "deal_budget", "deal"].count "deal_budget" = 2 := by decide
    obtain rfl : count = 1 := by omega
    decide
  · have honce : ["deal_budget", "deal_budget", "deal"].count "deal" = 1 := by decide
    omega

/-- The second of two equal names and a third name that is numbered already have one key. -/
theorem not_all_keysOf_nodup :
    ¬ ∀ vars : List Variable, (vars.map Variable.id).Nodup →
      ((keysOf vars).toList.map Prod.snd).Nodup := by
  intro h
  have hids : ((customNamed "A" "A" "A 2").map Variable.id).Nodup := by decide
  exact absurd (h _ hids) (by decide +kernel)

end Template
end Casework
