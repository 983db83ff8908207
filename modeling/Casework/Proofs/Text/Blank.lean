/-
  Casework.Proofs.Text.Blank

  Trimming. What is trimmed neither begins nor ends with a blank, and trimming changes nothing about
  such characters. Nothing is left exactly of what is blank. Letters and digits of the first 128
  characters are part of words, and blanks are not.
-/
import Casework.Text.Blank
import Casework.Text.Word
import Mathlib.Data.List.TakeWhile

namespace Casework.Text

-- ============================================================================
-- Trimming
-- ============================================================================

/-- The characters neither begin nor end with a blank. -/
structure Trimmed (cs : List Char) : Prop where
  head : ∀ c ∈ cs.head?, isBlank c = false
  last : ∀ c ∈ cs.getLast?, isBlank c = false

/-- What stands first behind the leading blanks is not blank. -/
theorem isBlank_head_dropWhile (cs : List Char) :
    ∀ c ∈ (cs.dropWhile isBlank).head?, isBlank c = false := by
  intro c hc
  have hhead := List.head?_dropWhile_not isBlank cs
  rw [Option.mem_def.1 hc] at hhead
  exact hhead

theorem dropWhile_isBlank_eq_self {cs : List Char} (h : ∀ c ∈ cs.head?, isBlank c = false) :
    cs.dropWhile isBlank = cs := by
  cases cs with
  | nil => rfl
  | cons c rest => exact List.dropWhile_cons_of_neg (by simp [h c rfl])

theorem Trimmed.trimChars_eq {cs : List Char} (h : Trimmed cs) : trimChars cs = cs := by
  have hlast : ∀ c ∈ cs.reverse.head?, isBlank c = false := by simpa using h.last
  rw [trimChars, trimStart, dropWhile_isBlank_eq_self h.head, trimEnd,
    dropWhile_isBlank_eq_self hlast,
    List.reverse_reverse]

/-- The end of what is trimmed is trimmed exactly if it does not begin with a blank. -/
theorem Trimmed.right_iff {cs ds : List Char} (h : Trimmed (cs ++ ds)) :
    Trimmed ds ↔ ∀ c ∈ ds.head?, isBlank c = false := by
  refine ⟨Trimmed.head, fun hhead => ⟨hhead, fun c hc => h.last c ?_⟩⟩
  rw [List.getLast?_append, Option.mem_def.1 hc]
  rfl

theorem trimChars_sublist (cs : List Char) : (trimChars cs).Sublist cs := by
  have hend : (trimEnd (trimStart cs)).Sublist (trimStart cs) :=
    List.reverse_sublist.1 (by
      rw [trimEnd, List.reverse_reverse]
      exact List.dropWhile_sublist _)
  exact hend.trans (List.dropWhile_sublist _)

/-- Without the blanks at the end, characters begin as before, if there are any left. -/
theorem mem_head?_of_trimEnd {cs : List Char} {c : Char} (h : c ∈ (trimEnd cs).head?) :
    c ∈ cs.head? := by
  obtain ⟨blanks, hblanks⟩ := List.dropWhile_suffix isBlank (l := cs.reverse)
  have hcs : trimEnd cs ++ blanks.reverse = cs := by
    rw [trimEnd, ← List.reverse_append, hblanks, List.reverse_reverse]
  rw [← hcs, List.head?_append, Option.mem_def.1 h]
  rfl

/-- Trimmed text neither begins nor ends with a blank. -/
theorem trimmed_trimChars (cs : List Char) : Trimmed (trimChars cs) where
  head c hc := isBlank_head_dropWhile cs c (mem_head?_of_trimEnd hc)
  last c hc := by
    rw [trimChars, trimEnd, List.getLast?_reverse] at hc
    exact isBlank_head_dropWhile _ c hc

/-- Nothing is left of a text exactly if it is blank. -/
theorem trimChars_eq_nil_iff {cs : List Char} : trimChars cs = [] ↔ cs.all isBlank := by
  have hdropped : ∀ l : List Char, l.dropWhile isBlank = [] ↔ l.all isBlank := fun l => by
    rw [List.dropWhile_eq_nil_iff, List.all_eq_true]
  have htwice : (trimStart cs).dropWhile isBlank = trimStart cs :=
    dropWhile_isBlank_eq_self (isBlank_head_dropWhile cs)
  rw [trimChars, trimEnd, List.reverse_eq_nil_iff, hdropped, List.all_reverse, ← hdropped, htwice,
    trimStart, hdropped]

/-- Trimming leaves nothing of blank text, and of no other. -/
theorem trim_eq_empty_iff {s : String} : trim s = "" ↔ isBlankText s := by
  rw [trim, String.ofList_eq_empty_iff, trimChars_eq_nil_iff, isBlankText]

theorem trim_beq_empty (s : String) : (trim s == "") = isBlankText s := by
  rw [Bool.eq_iff_iff, beq_iff_eq, trim_eq_empty_iff]

-- ============================================================================
-- Words
-- ============================================================================

theorem toNat_of_isAlphanum {c : Char} (h : c.isAlphanum) : 48 ≤ c.toNat ∧ c.toNat ≤ 122 := by
  -- The classes of letters and digits compare the words of the characters, not their numbers.
  have hbetween : ∀ {low high : Char}, low.val ≤ c.val → c.val ≤ high.val →
      low.toNat ≤ c.toNat ∧ c.toNat ≤ high.toNat := fun hlow hhigh =>
    ⟨UInt32.le_iff_toNat_le.1 hlow, UInt32.le_iff_toNat_le.1 hhigh⟩
  obtain halpha | hdigit := Bool.or_eq_true_iff.1 h
  · obtain hupper | hlower := Bool.or_eq_true_iff.1 halpha
    · obtain ⟨hlow, hhigh⟩ := of_decide_eq_true hupper
      have : 65 ≤ c.toNat ∧ c.toNat ≤ 90 := hbetween hlow hhigh
      omega
    · obtain ⟨hlow, hhigh⟩ := Bool.and_eq_true_iff.1 hlower
      have : 97 ≤ c.toNat ∧ c.toNat ≤ 122 :=
        hbetween (of_decide_eq_true hlow) (of_decide_eq_true hhigh)
      omega
  · obtain ⟨hlow, hhigh⟩ := Bool.and_eq_true_iff.1 hdigit
    have : 48 ≤ c.toNat ∧ c.toNat ≤ 57 :=
      hbetween (of_decide_eq_true hlow) (of_decide_eq_true hhigh)
    omega

theorem isWord_of_isAlphanum {c : Char} (h : c.isAlphanum) : isWord c := by
  have hlow : c.toNat < 128 := Nat.lt_of_le_of_lt (toNat_of_isAlphanum h).2 (by decide)
  rw [isWord, if_pos hlow, isPlainAlphanumeric, h, Bool.true_or]

/-- A character in one of some ranges is in none of others that keep apart from them. -/
theorem CharRanges.contains_eq_false {ranges others : CharRanges}
    (hapart : ∀ p ∈ ranges, ∀ q ∈ others, p.2 < q.1 ∨ q.2 < p.1) {c : Char}
    (h : ranges.contains c) :
    others.contains c = false := by
  obtain ⟨p, hp, hc⟩ := List.any_eq_true.1 h
  refine List.any_eq_false.2 fun q hq hcq => ?_
  simp only [Bool.and_eq_true, decide_eq_true_eq] at hc hcq
  have := hapart p hp q hq
  omega

theorem isWord_of_isBlank {c : Char} (h : isBlank c) : isWord c = false := by
  rw [isWord]
  split
  case isFalse => exact CharRanges.contains_eq_false (by decide +kernel) h
  case isTrue hlow =>
    -- The blanks among the plain characters are control characters and the space.
    have hcontrol : c.toNat ≤ 32 := by
      simp only [isBlank, CharRanges.contains, blankRanges, List.any_cons, List.any_nil,
        Bool.or_false,
        Bool.or_eq_true, Bool.and_eq_true, decide_eq_true_eq] at h
      omega
    have halphanum : ¬ c.isAlphanum := fun h => absurd (toNat_of_isAlphanum h).1 (by omega)
    have hunderscore : c ≠ '_' := by
      rintro rfl
      exact absurd hcontrol (by decide)
    rw [isPlainAlphanumeric, Bool.eq_false_iff.2 halphanum, beq_eq_false_iff_ne.2 hunderscore,
      Bool.or_false]

end Casework.Text
