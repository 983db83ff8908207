/-
  Casework.Proofs.Text.Lowercase

  Lower-casing gives nothing that it would change again. A character that is lower-cased either
  stands on a run of the table and moves to the target of the run, or stays. No target of a run
  stands on a run, so what has moved stays from then on; the two characters that depend on more than
  the table become letters that stay, too. Neither is a target blank, so what is trimmed is trimmed
  after lower-casing.
-/
import Casework.Proofs.Text.Blank
import Casework.Text.Lowercase
import Mathlib.Data.List.Basic

namespace Casework.Text

-- ============================================================================
-- The table
-- ============================================================================

/-- A run of the table: its first and last code point, the step between its code points, and where
the first one moves. -/
abbrev CaseRun := Nat × Nat × Nat × Nat

namespace CaseRun

/-- Whether a code point stands on a run. -/
def holds (n : Nat) : CaseRun → Bool
  | (first, last, step, _) => first ≤ n && n ≤ last && (n - first) % step == 0

/-- Where a run moves a code point. -/
def image (n : Nat) : CaseRun → Nat
  | (first, _, _, target) => target + (n - first)

-- The table is compared with itself by evaluation, hence the tests that are the cheapest to
-- evaluate: parts
-- instead of patterns, and the comparisons that numbers have built in.

/-- Whether a run moves nothing into a range. -/
def avoids (range : Nat × Nat) (run : CaseRun) : Bool :=
  bif run.2.2.2.ble range.2 then (run.2.2.2 + (run.2.1 - run.1)).blt range.1 else true

/-- Whether a run moves nothing onto another one: beyond it, or between its code points. -/
def clears (other run : CaseRun) : Bool :=
  bif avoids (other.1, other.2.1) run then true
  else other.2.2.1.beq 2 && (run.2.2.1.beq 2 || run.1.beq run.2.1) && other.1.ble run.2.2.2 &&
    ((run.2.2.2 - other.1) % 2).beq 1

/-- A run that avoids a range sends none of its characters there. -/
theorem not_mem_of_avoids {run : CaseRun} {range : Nat × Nat} {n : Nat} (h : avoids range run)
    (hn : holds n run) : ¬ (range.1 ≤ image n run ∧ image n run ≤ range.2) := by
  obtain ⟨first, last, step, target⟩ := run
  simp only [avoids, Bool.cond_true_right, holds, image, Bool.or_eq_true, Bool.and_eq_true,
    Bool.not_eq_true', decide_eq_true_eq, beq_iff_eq, Nat.blt_eq, ← Bool.not_eq_true,
      Nat.ble_eq] at h hn ⊢
  omega

/-- A run that clears another sends none of its characters into it. -/
theorem not_holds_of_clears {other run : CaseRun} {n : Nat} (h : clears other run)
    (hn : holds n run) :
    holds (image n run) other = false := by
  obtain ⟨first', last', step', target'⟩ := other
  rw [clears, Bool.cond_true_left, Bool.or_eq_true] at h
  rcases h with h | h
  · have hout := not_mem_of_avoids h hn
    obtain ⟨first, last, step, target⟩ := run
    simp only [holds, Bool.and_eq_false_iff, decide_eq_false_iff_not]
    exact .inl (not_and_or.1 hout)
  · obtain ⟨first, last, step, target⟩ := run
    simp only [holds, image, Bool.and_eq_true, Bool.or_eq_true, Bool.and_eq_false_iff,
      decide_eq_true_eq, beq_iff_eq, beq_eq_false_iff_ne, Nat.beq_eq, Nat.ble_eq] at h hn ⊢
    obtain ⟨⟨⟨rfl, hstep⟩, hfrom⟩, hodd⟩ := h
    -- The distance from the start of the other run stays odd along the targets.
    rcases hstep with rfl | rfl <;> omega

end CaseRun

open CaseRun

/-- No run moves a letter onto a run. -/
theorem clears_lowercaseRuns :
    lowercaseRuns.all fun run => lowercaseRuns.all fun other => clears other run := by
  decide +kernel

/-- The dotted capital I, the blanks, and the surrogates, which are no characters. -/
def avoided : List (Nat × Nat) := (0x130, 0x130) :: (0xd800, 0xdfff) :: blankRanges

/-- No run moves a letter onto one of these, or behind the last character. -/
theorem avoids_lowercaseRuns :
    lowercaseRuns.all fun run =>
      avoided.all (avoids · run) && decide (image run.2.1 run < 0x110000) := by
  decide +kernel

-- ============================================================================
-- Single characters
-- ============================================================================

/-- Whether a character stays as it is when it is lower-cased, whatever stands around it. -/
def isLower (c : Char) : Bool :=
  (lowercaseRuns.all fun run => !holds c.toNat run) && c != dottedCapitalI

/-- A character moves along a run of the table, or stands on none and stays. -/
theorem lowerChar_cases (c : Char) :
    (∃ run ∈ lowercaseRuns, holds c.toNat run ∧ lowerChar c = Char.ofNat (image c.toNat run)) ∨
      (∀ run ∈ lowercaseRuns, holds c.toNat run = false) ∧ lowerChar c = c := by
  rw [lowerChar]
  split
  next first last step target h =>
    have hfound : lowercaseRuns.find? (holds c.toNat) = some (first, last, step, target) := h
    exact .inl ⟨_, List.mem_of_find?_eq_some hfound, List.find?_some hfound, rfl⟩
  next h =>
    have hfound : lowercaseRuns.find? (holds c.toNat) = none := h
    exact .inr ⟨fun run hrun => by simpa using List.find?_eq_none.1 hfound run hrun, rfl⟩

/-- What a run moves a code point to is a character. -/
theorem toNat_ofNat_image {run : CaseRun} {n : Nat} (hrun : run ∈ lowercaseRuns)
    (hn : holds n run) :
    (Char.ofNat (image n run)).toNat = image n run := by
  have htable := List.all_eq_true.1 avoids_lowercaseRuns run hrun
  rw [Bool.and_eq_true, decide_eq_true_eq] at htable
  have hgap := not_mem_of_avoids (List.all_eq_true.1 htable.1 (0xd800, 0xdfff) (by decide)) hn
  have hmost : image n run ≤ image run.2.1 run := by
    obtain ⟨first, last, step, target⟩ := run
    simp only [holds, Bool.and_eq_true, decide_eq_true_eq] at hn
    simp only [image]
    omega
  have hvalid : (image n run).isValidChar := by
    simp only [Nat.isValidChar]
    omega
  rw [Char.ofNat, dif_pos hvalid]
  rfl

/-- A small letter stays as it is. -/
theorem lowerChar_of_isLower {c : Char} (h : isLower c) : lowerChar c = c := by
  rw [isLower, Bool.and_eq_true, List.all_eq_true] at h
  rcases lowerChar_cases c with ⟨run, hrun, hholds, -⟩ | ⟨-, hsame⟩
  · have hnot := h.1 run hrun
    rw [hholds] at hnot
    cases hnot
  · exact hsame

/-- What a character moves to is none of those that no run moves to. -/
theorem not_mem_of_lowerChar {c : Char} {range : Nat × Nat} (hrange : range ∈ avoided)
    (h : ¬ (range.1 ≤ c.toNat ∧ c.toNat ≤ range.2)) :
    ¬ (range.1 ≤ (lowerChar c).toNat ∧ (lowerChar c).toNat ≤ range.2) := by
  rcases lowerChar_cases c with ⟨run, hrun, hholds, himage⟩ | ⟨-, hsame⟩
  · have htable := List.all_eq_true.1 avoids_lowercaseRuns run hrun
    rw [Bool.and_eq_true] at htable
    rw [himage, toNat_ofNat_image hrun hholds]
    exact not_mem_of_avoids (List.all_eq_true.1 htable.1 range hrange) hholds
  · rwa [hsame]

theorem isLower_lowerChar {c : Char} (h : c ≠ dottedCapitalI) : isLower (lowerChar c) := by
  have hruns : ∀ run ∈ lowercaseRuns, holds (lowerChar c).toNat run = false := by
    intro other hother
    -- The character comes from a run, which clears every other, or stays as it is and lies in none.
    rcases lowerChar_cases c with ⟨run, hrun, hholds, himage⟩ | ⟨hnone, hsame⟩
    · rw [himage, toNat_ofNat_image hrun hholds]
      have hclears := List.all_eq_true.1
        (List.all_eq_true.1 clears_lowercaseRuns run hrun) other hother
      exact not_holds_of_clears hclears hholds
    · rw [hsame]
      exact hnone other hother
  have hplain : lowerChar c ≠ dottedCapitalI := by
    -- The dotted capital stays out of reach, as no run sends anything there.
    intro hdotted
    have hout : ¬ (0x130 ≤ c.toNat ∧ c.toNat ≤ 0x130) := fun hc =>
      h (by rw [← Char.ofNat_toNat c, show c.toNat = 0x130 by omega]; rfl)
    have hmoved := @not_mem_of_lowerChar c (0x130, 0x130) (by decide) hout
    rw [hdotted] at hmoved
    exact hmoved (by decide)
  rw [isLower, Bool.and_eq_true, List.all_eq_true]
  exact ⟨fun run hrun => by rw [hruns run hrun]; rfl, by simpa using hplain⟩

/-- No blank comes out of a character that is none. -/
theorem isBlank_lowerChar {c : Char} (h : isBlank c = false) : isBlank (lowerChar c) = false := by
  rw [isBlank, CharRanges.contains, List.any_eq_false] at h ⊢
  intro range hrange
  have hmem : range ∈ avoided := List.mem_cons_of_mem _ (List.mem_cons_of_mem _ hrange)
  simpa using not_mem_of_lowerChar hmem (by simpa using h range hrange)

/-- Plain letters are lower-cased as the table has it. -/
theorem toLower_eq_lowerChar {c : Char} (h : c.toNat < 128) : c.toLower = lowerChar c := by
  have hall : (List.range 128).all fun n => (Char.ofNat n).toLower == lowerChar (Char.ofNat n) := by
    decide +kernel
  have hc := List.all_eq_true.1 hall c.toNat (List.mem_range.2 h)
  rwa [Char.ofNat_toNat, beq_iff_eq] at hc

-- ============================================================================
-- Characters in their places
-- ============================================================================

/-- What a character becomes between others. -/
def lowered (before : List Char) (c : Char) (rest : List Char) : List Char :=
  if c.toNat < 128 then [c.toLower]
  else if c == capitalSigma then
    [Char.ofNat (if nextIsCased before && !nextIsCased rest then 0x3c2 else 0x3c3)]
  else if c == dottedCapitalI then ['i', Char.ofNat 0x307]
  else [lowerChar c]

theorem lowerFrom_cons (before : List Char) (c : Char) (rest : List Char) :
    lowerFrom before (c :: rest) = lowered before c rest ++ lowerFrom (c :: before) rest := rfl

/-- A character becomes what the table says, a sigma, or an i with a dot. -/
theorem lowered_cases (before : List Char) (c : Char) (rest : List Char) :
    (lowered before c rest = [lowerChar c] ∧ c ≠ dottedCapitalI) ∨
      (c = capitalSigma ∧ ∃ n ∈ [0x3c2, 0x3c3], lowered before c rest = [Char.ofNat n]) ∨
      (c = dottedCapitalI ∧ lowered before c rest = ['i', Char.ofNat 0x307]) := by
  rw [lowered]
  split
  case isTrue hplain =>
    refine .inl ⟨by rw [toLower_eq_lowerChar hplain], ?_⟩
    rintro rfl
    exact absurd hplain (by decide)
  case isFalse =>
    split
    case isTrue hsigma =>
      refine .inr (.inl ⟨beq_iff_eq.1 hsigma, _, ?_, rfl⟩)
      split <;> decide
    case isFalse =>
      split
      case isTrue hdotted => exact .inr (.inr ⟨beq_iff_eq.1 hdotted, rfl⟩)
      case isFalse hdotted => exact .inl ⟨rfl, by simpa using hdotted⟩

/-- A small letter stays as it is, wherever it stands. -/
theorem lowered_of_isLower {c : Char} (h : isLower c) (before rest : List Char) :
    lowered before c rest = [c] := by
  rcases lowered_cases before c rest with ⟨htable, -⟩ | ⟨rfl, -⟩ | ⟨rfl, -⟩
  · rw [htable, lowerChar_of_isLower h]
  · exact absurd h (by decide)
  · exact absurd h (by decide)

/-- What a character becomes is not empty, stays as it is, and is not blank if the character is
not. -/
theorem lowered_spec (before : List Char) (c : Char) (rest : List Char) :
    lowered before c rest ≠ [] ∧
      ∀ x ∈ lowered before c rest, isLower x ∧ (isBlank c = false → isBlank x = false) := by
  rcases lowered_cases before c rest with ⟨htable, hplain⟩ | ⟨rfl, n, hn, hsigma⟩ | ⟨rfl, hdotted⟩
  · rw [htable]
    refine ⟨List.cons_ne_nil _ _, fun x hx => ?_⟩
    obtain rfl := List.mem_singleton.1 hx
    exact ⟨isLower_lowerChar hplain, isBlank_lowerChar⟩
  · rw [hsigma]
    have hboth : ∀ n ∈ [0x3c2, 0x3c3], isLower (Char.ofNat n) ∧ isBlank (Char.ofNat n) = false := by
      decide
    refine ⟨List.cons_ne_nil _ _, fun x hx => ?_⟩
    obtain rfl := List.mem_singleton.1 hx
    exact ⟨(hboth n hn).1, fun _ => (hboth n hn).2⟩
  · rw [hdotted]
    have hboth : ∀ x ∈ ['i', Char.ofNat 0x307], isLower x ∧ isBlank x = false :=
      List.forall_mem_cons.2 ⟨by decide, List.forall_mem_singleton.2 (by decide)⟩
    exact ⟨List.cons_ne_nil _ _, fun x hx => ⟨(hboth x hx).1, fun _ => (hboth x hx).2⟩⟩

-- ============================================================================
-- Texts
-- ============================================================================

theorem lowerFrom_of_isLower {cs : List Char} (h : ∀ c ∈ cs, isLower c) (before : List Char) :
    lowerFrom before cs = cs := by
  induction cs generalizing before with
  | nil => rfl
  | cons c rest ih =>
    rw [lowerFrom_cons, lowered_of_isLower (h c List.mem_cons_self),
      ih fun x hx => h x (List.mem_cons_of_mem _ hx)]
    rfl

theorem isLower_of_mem_lowerFrom {before cs : List Char} {x : Char} (h : x ∈ lowerFrom before cs) :
    isLower x := by
  induction cs generalizing before with
  | nil => cases h
  | cons c rest ih =>
    rw [lowerFrom_cons, List.mem_append] at h
    rcases h with h | h
    · exact ((lowered_spec before c rest).2 x h).1
    · exact ih h

/-- What is lower-cased stays as it is. -/
theorem lowerChars_lowerChars (cs : List Char) : lowerChars (lowerChars cs) = lowerChars cs :=
  lowerFrom_of_isLower (fun _ hx => isLower_of_mem_lowerFrom hx) []

theorem lowerFrom_eq_nil_iff {before cs : List Char} : lowerFrom before cs = [] ↔ cs = [] := by
  cases cs with
  | nil => simp [lowerFrom]
  | cons c rest => simp [lowerFrom_cons, (lowered_spec before c rest).1]

/-- The last character of what is lower-cased comes from the last one. -/
theorem exists_of_mem_getLast?_lowerFrom {before cs : List Char} {x : Char}
    (h : x ∈ (lowerFrom before cs).getLast?) :
    ∃ c ∈ cs.getLast?, ∃ behind rest, x ∈ lowered behind c rest := by
  induction cs generalizing before with
  | nil => cases h
  | cons c rest ih =>
    rw [lowerFrom_cons] at h
    cases rest with
    | nil => exact ⟨c, rfl, before, [], List.mem_of_getLast? (by simpa [lowerFrom] using h)⟩
    | cons next rest =>
      have hmore : lowerFrom (c :: before) (next :: rest) ≠ [] := fun hnil =>
        List.cons_ne_nil _ _ (lowerFrom_eq_nil_iff.1 hnil)
      rw [List.getLast?_append_of_ne_nil _ hmore] at h
      obtain ⟨last, hlast, hx⟩ := ih h
      exact ⟨last, by rwa [List.getLast?_cons_cons], hx⟩

/-- What is trimmed is trimmed after lower-casing. -/
theorem Trimmed.lowerChars {cs : List Char} (h : Trimmed cs) : Trimmed (lowerChars cs) := by
  constructor
  · cases cs with
    | nil => exact h.head
    | cons c rest =>
      intro x hx
      obtain ⟨hsome, hall⟩ := lowered_spec [] c rest
      rw [Text.lowerChars, lowerFrom_cons, List.head?_append_of_ne_nil _ hsome] at hx
      exact (hall x (List.mem_of_head? hx)).2 (h.head c rfl)
  · intro x hx
    obtain ⟨c, hc, before, rest, hmem⟩ := exists_of_mem_getLast?_lowerFrom hx
    exact ((lowered_spec before c rest).2 x hmem).2 (h.last c hc)

end Casework.Text
