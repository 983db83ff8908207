/-
  Casework.Proofs.Program.StepId

  Ids are handed out so that no two instructions share one. Looking for a free number ends, because
  the ids in use cannot hold the wanted id and as many numbered ones as there are ids in use. So a
  search that knows no limit ends as well, and finds the same. Every id has a character at least,
  and plain ones only.
-/
import Casework.Program.StepId
import Mathlib.Data.List.Nodup
import Mathlib.Data.List.Perm.Subperm

namespace Casework.StepId

/-! ## Numbered ids -/

/-- A numbered id has two dashes and the digits of its number behind it. -/
theorem toList_numbered (id : String) (n : Nat) :
    (numbered id n).toList = id.toList ++ '_' :: '_' :: Nat.toDigits 10 n := by
  simp [numbered, String.toList_append]

/-- Different numbers make different ids. -/
theorem numbered_injective (id : String) : Function.Injective (numbered id) := by
  intro m n h
  have hlist := congrArg String.toList h
  rw [toList_numbered, toList_numbered] at hlist
  have hdigits : Nat.toDigits 10 m = Nat.toDigits 10 n := by
    simpa using List.append_cancel_left hlist
  have hvalue := congrArg (fun cs => Nat.ofDigitChars 10 cs 0) hdigits
  simpa using hvalue

/-- No numbered id is the id without a number. -/
theorem numbered_ne_self (id : String) (n : Nat) : numbered id n ≠ id := by
  intro h
  have hlength := congrArg (fun s => s.toList.length) h
  simp only [toList_numbered, List.length_append, List.length_cons] at hlength
  omega

/-! ## A free number is found -/

/-- The search passes over taken numbers only, and stops at a free one or at its limit. -/
theorem firstFree_eq_numbered (used : List String) (id : String) (limit n : Nat) :
    ∃ k, n ≤ k ∧ firstFree used id limit n = numbered id k ∧
      (∀ j, n ≤ j → j < k → numbered id j ∈ used) ∧
      (numbered id k ∉ used ∨ k = n + limit) := by
  induction limit generalizing n with
  | zero => exact ⟨n, Nat.le_refl n, rfl, fun j hn hk => absurd hn (by omega), Or.inr rfl⟩
  | succ limit ih =>
    rw [firstFree]
    by_cases hused : numbered id n ∈ used
    · obtain ⟨k, hk, heq, htaken, hend⟩ := ih (n + 1)
      refine ⟨k, by omega, by rw [if_pos (by simpa using hused), heq], ?_, ?_⟩
      · intro j hj hjk
        rcases Nat.eq_or_lt_of_le hj with rfl | hlt
        · exact hused
        · exact htaken j hlt hjk
      · exact hend.imp_right fun h => by omega
    · exact ⟨n, Nat.le_refl n, by rw [if_neg (by simpa using hused)],
        fun j hn hk => absurd hn (by omega), Or.inl hused⟩

/-- An id and all its numbered ones from one up to the number of used ids are not all used. -/
theorem exists_numbered_not_mem {used : List String} {id : String} (hid : id ∈ used) :
    ∃ j, 1 ≤ j ∧ j < 1 + used.length ∧ numbered id j ∉ used := by
  by_contra hall
  -- If all numbers up to there were taken, the used ids would hold the id and as many numbered ones
  -- as there are used ids: one too many.
  have hsub : id :: (List.range' 1 used.length).map (numbered id) ⊆ used := by
    intro x hx
    rcases List.mem_cons.1 hx with rfl | hx
    · exact hid
    · obtain ⟨j, hj, rfl⟩ := List.mem_map.1 hx
      rw [List.mem_range'_1] at hj
      exact by_contra fun h => hall ⟨j, hj.1, hj.2, h⟩
  have hnodup : (id :: (List.range' 1 used.length).map (numbered id)).Nodup := by
    refine List.nodup_cons.2 ⟨?_, (List.nodup_range' ..).map (numbered_injective id)⟩
    intro hmem
    obtain ⟨j, -, hj⟩ := List.mem_map.1 hmem
    exact numbered_ne_self id j hj
  have hlength := (hnodup.subperm hsub).length_le
  rw [List.length_cons, List.length_map, List.length_range'] at hlength
  omega

/-- The search for a free number ends with an id that is not in use. -/
theorem firstFree_not_mem {used : List String} {id : String} (hid : id ∈ used) :
    firstFree used id used.length 1 ∉ used := by
  obtain ⟨k, -, heq, htaken, hend⟩ := firstFree_eq_numbered used id used.length 1
  obtain ⟨j, hj, hlimit, hfree⟩ := exists_numbered_not_mem hid
  rw [heq]
  rcases hend with hend | rfl
  · exact hend
  · exact absurd (htaken j hj hlimit) hfree

/-- A fresh id differs from every used one. -/
theorem fresh_not_mem (used : List String) (base : String) : fresh used base ∉ used := by
  rw [fresh]
  split
  case isTrue h => exact firstFree_not_mem (by simpa using h)
  case isFalse h => simpa using h

/-! ## Ids for several texts -/

theorem freshAll_cons (used : List String) (base : String) (rest : List String) :
    freshAll used (base :: rest) =
      (fresh used base :: (freshAll (fresh used base :: used) rest).1,
        (freshAll (fresh used base :: used) rest).2) := rfl

@[simp] theorem length_freshAll (used bases : List String) :
    (freshAll used bases).1.length = bases.length := by
  induction bases generalizing used with
  | nil => rfl
  | cons base rest ih => rw [freshAll_cons, List.length_cons, ih, List.length_cons]

/-- An id that is handed out was not in use before. -/
theorem freshAll_not_mem {used bases : List String} {id : String}
    (h : id ∈ (freshAll used bases).1) : id ∉ used := by
  induction bases generalizing used with
  | nil => exact absurd h List.not_mem_nil
  | cons base rest ih =>
    rw [freshAll_cons] at h
    rcases List.mem_cons.1 h with rfl | h
    · exact fresh_not_mem used base
    · exact fun hused => ih h (List.mem_cons_of_mem _ hused)

/-- No id is handed out twice. -/
theorem nodup_freshAll (used bases : List String) : (freshAll used bases).1.Nodup := by
  induction bases generalizing used with
  | nil => exact List.nodup_nil
  | cons base rest ih =>
    rw [freshAll_cons]
    exact List.nodup_cons.2 ⟨fun h => freshAll_not_mem h List.mem_cons_self, ih _⟩

/-! ## Characters of ids -/

/-- Whether a text has the form of an id: it is not empty, and made of plain letters, digits,
underscores and hyphens. -/
def IsId (id : String) : Prop := id ≠ "" ∧ ∀ c ∈ id.toList, isIdChar c

/-- Every character is made one that ids may have. -/
theorem isIdChar_safeChar (c : Char) : isIdChar (safeChar c) := by
  rw [safeChar]
  split
  case isTrue h => exact h
  case isFalse => decide

theorem mem_of_mem_squeeze {after : Bool} {cs : List Char} {c : Char} (h : c ∈ squeeze after cs) :
    c ∈ cs := by
  induction cs generalizing after with
  | nil => cases after <;> simp [squeeze] at h
  | cons first rest ih =>
    rw [squeeze] at h
    split at h
    · split at h
      · exact List.mem_cons_of_mem _ (ih h)
      · exact (List.mem_cons.1 h).elim (fun he => he ▸ List.mem_cons_self)
          fun hrest => List.mem_cons_of_mem _ (ih hrest)
    · exact (List.mem_cons.1 h).elim (fun he => he ▸ List.mem_cons_self)
        fun hrest => List.mem_cons_of_mem _ (ih hrest)

/-- Of every text an id is made. -/
theorem isId_sanitize (base : String) : IsId (sanitize base) := by
  rw [sanitize]
  split
  case isTrue =>
    have hall : "step".toList.all isIdChar = true := by decide
    exact ⟨by decide, List.all_eq_true.1 hall⟩
  case isFalse hsome =>
    refine ⟨fun hempty => hsome ?_, fun c hc => ?_⟩
    · rw [List.isEmpty_iff, ← String.toList_ofList (l := squeeze false _), hempty]
      rfl
    · rw [String.toList_ofList] at hc
      obtain ⟨other, -, rfl⟩ := List.mem_map.1 (mem_of_mem_squeeze hc)
      exact isIdChar_safeChar other

/-- A number behind an id makes an id. -/
theorem IsId.numbered {id : String} (h : IsId id) (n : Nat) : IsId (numbered id n) := by
  refine ⟨fun hempty => ?_, fun c hc => ?_⟩
  · have hlist := congrArg String.toList hempty
    rw [toList_numbered] at hlist
    simp at hlist
  · rw [toList_numbered, List.mem_append, List.mem_cons, List.mem_cons] at hc
    rcases hc with hc | rfl | rfl | hc
    · exact h.2 c hc
    · decide
    · decide
    · have hdigit := Nat.isDigit_of_mem_toDigits (by decide) (by decide) hc
      simp [isIdChar, Char.isAlphanum, hdigit]

/-- What is handed out is an id. -/
theorem isId_fresh (used : List String) (base : String) : IsId (fresh used base) := by
  rw [fresh]
  split
  case isTrue =>
    obtain ⟨k, -, heq, -⟩ := firstFree_eq_numbered used (sanitize base) used.length 1
    rw [heq]
    exact (isId_sanitize base).numbered k
  case isFalse => exact isId_sanitize base

/-- Every id that is handed out has the form of one. -/
theorem isId_of_mem_freshAll {used bases : List String} {id : String}
    (h : id ∈ (freshAll used bases).1) : IsId id := by
  induction bases generalizing used with
  | nil => exact absurd h List.not_mem_nil
  | cons base rest ih =>
    rw [freshAll_cons] at h
    rcases List.mem_cons.1 h with rfl | h
    · exact isId_fresh used base
    · exact ih h

/-! ## Searches without a limit -/

/-- A search for an id that is not in use, as a loop: while the candidate is in use, the next one is
the id with number `n`. After some passes it ends with what it has found. -/
inductive Searches (used : List String) (id : String) :
    (candidate : String) → (n passes : Nat) → (found : String) → Prop where
  | stop {candidate : String} {n : Nat} (hfree : candidate ∉ used) :
    Searches used id candidate n 0 candidate
  | pass {candidate found : String} {n passes : Nat} (htaken : candidate ∈ used)
    (hrest : Searches used id (numbered id n) (n + 1) passes found) :
    Searches used id candidate n (passes + 1) found

namespace Searches

variable {used : List String} {id candidate found found' : String} {n passes passes' : Nat}

/-- A search can end in one way only. -/
theorem unique (h : Searches used id candidate n passes found)
    (h' : Searches used id candidate n passes' found') : passes' = passes ∧ found' = found := by
  induction h generalizing passes' with
  | stop hfree =>
    cases h' with
    | stop => exact ⟨rfl, rfl⟩
    | pass htaken => exact absurd htaken hfree
  | pass htaken _ ih =>
    cases h' with
    | stop hfree => exact absurd htaken hfree
    | pass _ hrest =>
      obtain ⟨hpasses, hfound⟩ := ih hrest
      exact ⟨congrArg (· + 1) hpasses, hfound⟩

/-- A search passes over numbers that are taken, and stops at the first one that is free. -/
theorem of_taken (htaken : ∀ j, n ≤ j → j < n + passes → numbered id j ∈ used)
    (hfree : numbered id (n + passes) ∉ used) :
    Searches used id (numbered id n) (n + 1) passes (numbered id (n + passes)) := by
  induction passes generalizing n with
  | zero => exact .stop hfree
  | succ passes ih =>
    have hshift : n + (passes + 1) = n + 1 + passes := by omega
    rw [hshift] at hfree ⊢
    exact .pass (htaken n (Nat.le_refl n) (by omega))
      (ih (fun j hj hlt => htaken j (Nat.le_of_succ_le hj) (by omega)) hfree)

end Searches

/-- An id for a text, the least that may be: what the text suggests, or, if that is in use, the same
with the least number from one on that makes it free. -/
inductive Suggested (used : List String) (base : String) : (id : String) → Prop where
  | itself (hfree : sanitize base ∉ used) : Suggested used base (sanitize base)
  | numbered {k : Nat} (hused : sanitize base ∈ used) (hk : 1 ≤ k)
    (htaken : ∀ j, 1 ≤ j → j < k → numbered (sanitize base) j ∈ used)
    (hfree : numbered (sanitize base) k ∉ used) : Suggested used base (numbered (sanitize base) k)

namespace Suggested

variable {used : List String} {base id : String}

/-- The id of a text is not in use. -/
theorem not_mem (h : Suggested used base id) : id ∉ used := by
  cases h with
  | itself hfree => exact hfree
  | numbered _ _ _ hfree => exact hfree

/-- Only what is in use counts, not in which order. -/
theorem congr {used' : List String} (h : Suggested used base id)
    (hsame : ∀ x, x ∈ used ↔ x ∈ used') :
    Suggested used' base id := by
  cases h with
  | itself hfree => exact .itself fun hused => hfree ((hsame _).2 hused)
  | numbered hused hk htaken hfree =>
    exact .numbered ((hsame _).1 hused) hk (fun j hj hlt => (hsame _).1 (htaken j hj hlt))
      fun hused' => hfree ((hsame _).2 hused')

/-- The id of a text is an id. -/
theorem isId (h : Suggested used base id) : IsId id := by
  cases h with
  | itself => exact isId_sanitize base
  | numbered => exact (isId_sanitize base).numbered _

/-- The search for such an id ends with it, after as many passes as there are ids in use at most. -/
theorem exists_searches (h : Suggested used base id) :
    ∃ passes ≤ used.length, Searches used (sanitize base) (sanitize base) 1 passes id := by
  cases h with
  | itself hfree => exact ⟨0, Nat.zero_le _, .stop hfree⟩
  | @numbered k hused hk htaken hfree =>
    obtain ⟨passes, rfl⟩ := Nat.exists_eq_add_of_le hk
    obtain ⟨j, hj, hbound, hfree'⟩ := exists_numbered_not_mem hused
    have hle : 1 + passes ≤ j := by
      by_contra hlt
      exact hfree' (htaken j hj (Nat.lt_of_not_le hlt))
    exact ⟨passes + 1, by omega, .pass hused (.of_taken htaken hfree)⟩

end Suggested

/-- The id that is handed out for a text is the least one that may be. -/
theorem suggested_fresh (used : List String) (base : String) :
    Suggested used base (fresh used base) := by
  rw [fresh]
  split
  case isTrue hused =>
    have hused : sanitize base ∈ used := by simpa using hused
    have hfree := firstFree_not_mem hused
    obtain ⟨k, hk, heq, htaken, -⟩ := firstFree_eq_numbered used (sanitize base) used.length 1
    rw [heq] at hfree ⊢
    exact .numbered hused hk htaken hfree
  case isFalse hfree => exact .itself (by simpa using hfree)

/-! ## Searches for several texts -/

/-- Ids for several texts are searched for, one after the other; each is in use from then on. -/
inductive Allocates : (used bases ids final : List String) → Prop where
  | nil {used : List String} : Allocates used [] [] used
  | cons {used rest ids final : List String} {base id : String} {passes : Nat}
    (hsearch : Searches used (sanitize base) (sanitize base) 1 passes id)
    (hrest : Allocates (id :: used) rest ids final) :
    Allocates used (base :: rest) (id :: ids) final

/-- There is one way only to hand out ids for some texts. -/
theorem Allocates.unique {used bases ids ids' final final' : List String}
    (h : Allocates used bases ids final) (h' : Allocates used bases ids' final') :
    ids' = ids ∧ final' = final := by
  induction h generalizing ids' with
  | nil =>
    cases h'
    exact ⟨rfl, rfl⟩
  | cons hsearch _ ih =>
    cases h' with
    | cons hsearch' hrest' =>
      obtain ⟨-, rfl⟩ := hsearch.unique hsearch'
      obtain ⟨rfl, rfl⟩ := ih hrest'
      exact ⟨rfl, rfl⟩

/-- All searches end. -/
theorem allocates_freshAll (used bases : List String) :
    Allocates used bases (freshAll used bases).1 (freshAll used bases).2 := by
  induction bases generalizing used with
  | nil => exact .nil
  | cons base rest ih =>
    obtain ⟨passes, -, hsearch⟩ := (suggested_fresh used base).exists_searches
    exact .cons hsearch (ih (fresh used base :: used))

/-- The used ids are, in the end, those from before and those that were handed out. -/
theorem mem_used_freshAll {used bases : List String} {id : String} :
    id ∈ (freshAll used bases).2 ↔ id ∈ used ∨ id ∈ (freshAll used bases).1 := by
  induction bases generalizing used with
  | nil => exact ⟨.inl, fun h => h.resolve_right List.not_mem_nil⟩
  | cons base rest ih =>
    rw [freshAll_cons, ih, List.mem_cons, List.mem_cons]
    tauto

/-- The id of a text is free among the used ids and those that were handed out before it, and the
least one that is. -/
theorem suggested_freshAll {used bases : List String} {i : Nat} {base id : String}
    (hbase : bases[i]? = some base) (hid : (freshAll used bases).1[i]? = some id) :
    Suggested (used ++ (freshAll used bases).1.take i) base id := by
  induction bases generalizing used i with
  | nil => cases hbase
  | cons first rest ih =>
    rw [freshAll_cons] at hid ⊢
    cases i with
    | zero =>
      obtain rfl : first = base := Option.some.inj hbase
      obtain rfl : fresh used first = id := Option.some.inj hid
      rw [List.take_zero, List.append_nil]
      exact suggested_fresh used first
    | succ i =>
      refine (ih hbase hid).congr fun x => ?_
      simp only [List.take_succ_cons, List.mem_append, List.mem_cons]
      tauto

/-- For any texts, ids are handed out one after the other over one set of used ids: all searches
end, each with the id that its text suggests or, if that is in use, with the least number behind it
that is free. The ids have the form of ids, no two are the same, and the set grows by exactly
these. -/
theorem exists_allocates (used bases : List String) :
    ∃ ids final, Allocates used bases ids final ∧
      (∀ ids' final', Allocates used bases ids' final' → ids' = ids ∧ final' = final) ∧
      freshAll used bases = (ids, final) ∧
      ids.length = bases.length ∧ ids.Nodup ∧ (∀ x, x ∈ final ↔ x ∈ used ∨ x ∈ ids) ∧
      ∀ (i : Nat) (base id : String), bases[i]? = some base → ids[i]? = some id →
        IsId id ∧ id ∉ used ++ ids.take i ∧ Suggested (used ++ ids.take i) base id := by
  have hallocates := allocates_freshAll used bases
  refine ⟨(freshAll used bases).1, (freshAll used bases).2, hallocates,
    fun ids' final' h => hallocates.unique h, rfl, length_freshAll used bases,
    nodup_freshAll used bases, fun x => mem_used_freshAll, ?_⟩
  intro i base id hbase hid
  have hsuggested := suggested_freshAll hbase hid
  exact ⟨hsuggested.isId, hsuggested.not_mem, hsuggested⟩

/-- An id that is in use already, and one that only looks like a numbered one. -/
example : freshAll ["notify__1"] ["notify", "notify", "notify__1"] =
    (["notify", "notify__2", "notify_1"], ["notify_1", "notify__2", "notify", "notify__1"]) := by
  decide +kernel

end Casework.StepId
