/-
  Casework.Proofs.Template.Cutting

  How a cut goes on. At each place either nothing occurs, and the cut goes on behind the character,
  or an occurrence does, and the cut goes on behind that. So a text can be cut in parts, wherever no
  occurrence reaches from one part into the next.
-/
import Casework.Template.Segment
import Mathlib.Data.List.Basic

namespace Casework.Template

variable {pattern : Pattern}

/-- The text of stretches. -/
def textOf (segments : List Segment) : String := String.ofList (segments.flatMap Segment.chars)

/-- The segments of a cut text put together are the text again. -/
theorem textOf_cut (pattern : Pattern) (s : String) : textOf (cut pattern s) = s := by
  rw [textOf, cut, chars_cutFrom, List.drop_zero, String.ofList_toList]

/-- What stands for a stretch when occurrences are replaced. -/
def Segment.filled (replacement : String → List Char → String) : Segment → List Char
  | .char c => [c]
  | .found value spelling => (replacement value spelling).toList

/-- Filling in puts the filled segments one after the other. -/
theorem toList_fill (replacement : String → List Char → String) (segments : List Segment) :
    (fill replacement segments).toList = segments.flatMap (Segment.filled replacement) := by
  rw [fill, String.toList_ofList]
  refine congrArg (List.flatMap · segments) (funext fun segment => ?_)
  cases segment <;> rfl

-- ============================================================================
-- One step
-- ============================================================================

/-- What stands before characters is the last one of those that were passed over. -/
theorem getLast?_cons_or (c : Char) (rest : List Char) (before : Option Char) :
    (c :: rest).getLast?.or before = rest.getLast?.or (some c) := by
  rw [List.getLast?_cons]
  cases rest.getLast? <;> rfl

/-- What is skipped counts only as what stands before the rest. -/
theorem cutFrom_eq_drop (pattern : Pattern) (skip : Nat) (before : Option Char) (cs : List Char) :
    cutFrom pattern skip before cs =
      cutFrom pattern 0 ((cs.take skip).getLast?.or before) (cs.drop skip) := by
  induction cs generalizing skip before with
  | nil => simp [cutFrom]
  | cons c rest ih =>
    cases skip with
    | zero => rfl
    | succ skip =>
      rw [cutFrom, ih, List.take_succ_cons, List.drop_succ_cons, getLast?_cons_or]

/-- Where the pattern finds nothing, one character goes over as it is. -/
theorem cutFrom_char {before : Option Char} {c : Char} {rest : List Char}
    (h : pattern before (c :: rest) = none) :
    cutFrom pattern 0 before (c :: rest) = .char c :: cutFrom pattern 0 (some c) rest := by
  rw [cutFrom, h]

/-- Where the pattern finds an occurrence, cutting goes on behind it. -/
theorem cutFrom_found {before : Option Char} {spelling after : List Char} {value : String}
    (hne : spelling ≠ [])
    (h : pattern before (spelling ++ after) = some ⟨value, spelling.length - 1⟩) :
    cutFrom pattern 0 before (spelling ++ after) =
      .found value spelling :: cutFrom pattern 0 spelling.getLast? after := by
  obtain ⟨c, rest, rfl⟩ := List.exists_cons_of_ne_nil hne
  rw [List.cons_append] at h ⊢
  rw [cutFrom, h]
  simp only [List.length_cons, Nat.add_sub_cancel, List.take_left]
  rw [cutFrom_eq_drop, List.take_left, List.drop_left, ← getLast?_cons_or c rest none,
    Option.or_none]

/-- What stands before a text counts for its first character only. -/
theorem cutFrom_congr {before before' : Option Char} {cs : List Char}
    (h : pattern before cs = pattern before' cs) :
    cutFrom pattern 0 before cs = cutFrom pattern 0 before' cs := by
  cases cs with
  | nil => rfl
  | cons c rest => rw [cutFrom, cutFrom, h]

/-- What is found is found somewhere by the pattern. -/
theorem exists_of_found_mem {skip : Nat} {before : Option Char} {cs : List Char} {value : String}
    {spelling : List Char} (h : .found value spelling ∈ cutFrom pattern skip before cs) :
    ∃ before rest more, pattern before rest = some ⟨value, more⟩ ∧
      spelling = rest.take (more + 1) := by
  induction cs generalizing skip before with
  | nil => cases skip <;> cases h
  | cons c rest ih =>
    cases skip with
    -- Within an occurrence the characters are skipped, and no segment is cut.
    | succ skip => exact ih h
    | zero =>
      rw [cutFrom] at h
      cases hfound : pattern before (c :: rest) with
      | none =>
        rw [hfound] at h
        obtain hhere | hlater := List.mem_cons.1 h
        · cases hhere
        · exact ih hlater
      | some occurrence =>
        rw [hfound] at h
        obtain hhere | hlater := List.mem_cons.1 h
        · cases hhere
          exact ⟨before, c :: rest, occurrence.more, hfound, rfl⟩
        · exact ih hlater

-- ============================================================================
-- Parts
-- ============================================================================

/-- No occurrence takes more characters than there are. -/
def Pattern.Fits (pattern : Pattern) : Prop :=
  ∀ before cs value more, pattern before cs = some ⟨value, more⟩ → more < cs.length

/-- What follows a text does not change what occurs in it. -/
def Pattern.Apart (pattern : Pattern) (cs after : List Char) : Prop :=
  ∀ before suffix, suffix ≠ [] → suffix <:+ cs →
    pattern before (suffix ++ after) = pattern before suffix

theorem cutFrom_append (hfits : pattern.Fits) {cs after : List Char}
    (hapart : pattern.Apart cs after)
    {skip : Nat} (hskip : skip ≤ cs.length) (before : Option Char) :
    cutFrom pattern skip before (cs ++ after) =
      cutFrom pattern skip before cs ++ cutFrom pattern 0 (cs.getLast?.or before) after := by
  induction cs generalizing skip before with
  | nil =>
    obtain rfl : skip = 0 := Nat.le_zero.1 hskip
    rfl
  | cons c rest ih =>
    -- Suffixes of the rest are suffixes of the whole, so the hypothesis carries over.
    have hrest : pattern.Apart rest after := fun before suffix hne hsuffix =>
      hapart before suffix hne (hsuffix.trans (List.suffix_cons c rest))
    rw [getLast?_cons_or]
    cases skip with
    | succ skip =>
      rw [List.cons_append, cutFrom, cutFrom, ih hrest (Nat.le_of_succ_le_succ hskip)]
    | zero =>
      have hsame := hapart before (c :: rest) (List.cons_ne_nil c rest) (List.suffix_refl _)
      rw [List.cons_append] at hsame ⊢
      rw [cutFrom, cutFrom, hsame]
      cases hfound : pattern before (c :: rest) with
      | none =>
        dsimp only
        rw [ih hrest (Nat.zero_le _), List.cons_append]
      | some occurrence =>
        obtain ⟨value, more⟩ := occurrence
        -- An occurrence fits the text before the joint, so what is skipped lies before it too.
        have hmore : more ≤ rest.length := Nat.le_of_lt_succ (hfits _ _ _ _ hfound)
        dsimp only
        rw [ih hrest hmore, List.take_append_of_le_length hmore, List.cons_append]

end Casework.Template
