/-
  Casework.Proofs.Template.BranchField

  Which fields of branches are variables. The field of a branch is rendered, and what is tested is
  the text that this gives. With no variables nothing but the characters between tokens is left of a
  field, and if every variable that it names has a text of one character, there is one character for
  each of its tokens. So a field shows one variable exactly if it is one token: a reference to a
  field of the contact becomes one, but a text that only begins and ends with double braces need not
  be one.
-/
import Casework.Proofs.Template.Substitution

namespace Casework.Template

/-- The text names a variable: it is a reference to a field of the contact, or a single token. -/
def NamesVariable (ref : String) : Prop :=
  (contactField? ref).isSome ∨ ∃ path, IsToken path ref.toList

/-- A text shows a variable: whatever the variables are, the text of this one is rendered, or none
if it is not set. -/
def Shows (field path : String) : Prop := ∀ vars, render field vars = shown vars path

-- ============================================================================
-- References
-- ============================================================================

/-- A reference to a field of the contact is made of the characters of paths. -/
theorem isTokenPath_of_contactField? {ref field : String} (h : contactField? ref = some field) :
    IsTokenPath (contactPath field).toList := by
  -- The two branches of the reading end in the same test of a name.
  have hnamed : ∃ name : List Char,
      (if !name.isEmpty && name.all isNameChar then some (String.ofList name) else none) =
        some field := by
    rw [contactField?] at h
    split at h
    case isTrue => exact ⟨_, h⟩
    case isFalse => cases h
  obtain ⟨name, hname⟩ := hnamed
  have hlead : IsTokenPath "contact.".toList := .of_all (by decide) (by decide)
  rw [contactPath, String.toList_append]
  refine hlead.append fun c hc => ?_
  split at hname
  case isFalse => cases hname
  case isTrue hchars =>
    cases hname
    rw [String.toList_ofList] at hc
    exact isPathChar_of_isNameChar (List.all_eq_true.1 (Bool.and_eq_true_iff.1 hchars).2 c hc)

/-- A text that begins with a brace is no reference. -/
theorem contactField?_of_brace {ref : String} {rest : List Char} (h : ref.toList = '\x7b' :: rest) :
    contactField? ref = none := by
  have hlead : contactLead.isPrefixOf ref.toList = false := by
    rw [h]
    rfl
  rw [contactField?, hlead]
  rfl

-- ============================================================================
-- What rendering tells of a text
-- ============================================================================

/-- Variables in which each of some paths has a text of one character. -/
def marked (paths : List String) : Fields := ⟨paths.map fun path => (path, .text "x")⟩

/-- The marked variables hold a value at the marked paths only. -/
theorem get?_marked (paths : List String) (path : String) :
    (marked paths).get? path = if path ∈ paths then some (.text "x") else none := by
  rw [marked, Entries.get?]
  induction paths with
  | nil => rfl
  | cons first rest ih =>
    by_cases hfirst : path = first
    · simp [hfirst]
    · rw [List.map_cons, List.lookup_cons, beq_eq_false_iff_ne.2 hfirst, ih]
      simp [hfirst]

/-- A marked path shows as one character, any other as nothing. -/
theorem shown_marked (paths : List String) (path : String) :
    shown (marked paths) path = if path ∈ paths then "x" else "" := by
  rw [shown, Entries.value, get?_marked]
  by_cases hmem : path ∈ paths
  · rw [if_pos hmem, if_pos hmem]
    rfl
  · rw [if_neg hmem, if_neg hmem]
    rfl

theorem length_shown_marked (paths : List String) (path : String) :
    (shown (marked paths) path).length ≤ 1 := by
  rw [shown_marked]
  split
  · exact Nat.le_refl 1
  · exact Nat.zero_le 1

/-- With no variables, a text shows the characters between its tokens. -/
theorem found_of_rendered_empty {cs : List Char} (h : rendered .empty cs = []) :
    ∀ segment ∈ cutFrom tokenPattern 0 none cs, ∃ path spelling,
      segment = .found path spelling := by
  intro segment hsegment
  rw [rendered, List.flatMap_eq_nil_iff] at h
  cases segment with
  | char c => exact absurd (h _ hsegment) (List.cons_ne_nil c [])
  | found path spelling => exact ⟨path, spelling, rfl⟩

/-- Where all their variables are marked, tokens show as many characters as there are tokens. -/
theorem length_flatMap_marked {segments : List Segment} {paths : List String}
    (h : ∀ segment ∈ segments, ∃ path ∈ paths, ∃ spelling, segment = .found path spelling) :
    (segments.flatMap (Segment.filled fun path _ => shown (marked paths) path)).length =
      segments.length := by
  induction segments with
  | nil => rfl
  | cons segment rest ih =>
    obtain ⟨⟨path, hpath, spelling, rfl⟩, hrest⟩ := List.forall_mem_cons.1 h
    have hone : Segment.filled (fun path _ => shown (marked paths) path)
        (.found path spelling) = ['x'] := by
      rw [Segment.filled, shown_marked, if_pos hpath]
      rfl
    rw [List.flatMap_cons, List.length_append, hone, ih hrest, List.length_singleton,
      List.length_cons,
      Nat.add_comm]

/-- A text that shows a variable, and is not empty, is a token. -/
theorem Shows.exists_isToken {field path : String} (h : Shows field path) (hne : field ≠ "") :
    ∃ path, IsToken path field.toList := by
  have hspelled : (cutFrom tokenPattern 0 none field.toList).flatMap Segment.chars = field.toList :=
    chars_cutFrom ..
  have hempty : rendered .empty field.toList = [] := by
    rw [← toList_render, h]
    rfl
  have hfound := found_of_rendered_empty hempty
  have hmem : ∀ {value spelling}, .found value spelling ∈ cutFrom tokenPattern 0 none field.toList →
      IsToken value.toList spelling := isToken_of_found_mem
  -- Marking the occurring paths makes every segment show, so the text tells how many there are.
  have hmarked := h (marked (occurrences (cutFrom tokenPattern 0 none field.toList)))
  rw [← String.toList_inj, toList_render, rendered] at hmarked
  generalize cutFrom tokenPattern 0 none field.toList = segments at hspelled hfound hmem hmarked
  have hoccurs : ∀ segment ∈ segments, ∃ path ∈ occurrences segments, ∃ spelling,
      segment = .found path spelling := by
    intro segment hsegment
    obtain ⟨path, spelling, rfl⟩ := hfound segment hsegment
    exact ⟨path, List.mem_filterMap.2 ⟨_, hsegment, rfl⟩, spelling, rfl⟩
  have hcount : segments.length ≤ 1 := by
    rw [← length_flatMap_marked hoccurs, hmarked, String.length_toList]
    exact length_shown_marked _ _
  cases segments with
  | nil => exact absurd (String.toList_inj.1 hspelled.symm) hne
  | cons segment rest =>
    -- One segment shows one character at most, so there is no room for a second.
    have hrest : rest = [] :=
      List.length_eq_zero_iff.1 (Nat.le_zero.1 (Nat.le_of_succ_le_succ hcount))
    subst hrest
    obtain ⟨value, spelling, rfl⟩ := hfound segment List.mem_cons_self
    have hfield : spelling = field.toList := by
      rw [← hspelled]
      exact (List.append_nil spelling).symm
    exact ⟨value.toList, hfield ▸ hmem List.mem_cons_self⟩

-- ============================================================================
-- The fields of branches
-- ============================================================================

/-- The field of a branch shows one variable exactly if a variable is named for it. -/
theorem exists_shows_iff {ref field : String} (h : branchField? ref = some field) :
    (∃ path, Shows field path) ↔ NamesVariable ref := by
  rw [branchField?] at h
  split at h
  case isTrue hbraces =>
    cases h
    obtain ⟨rest, hrest⟩ := List.isPrefixOf_iff_prefix.1 (Bool.and_eq_true_iff.1 hbraces).1
    have hnone : contactField? ref = none := contactField?_of_brace hrest.symm
    -- Empty text has no opening braces.
    have hne : ref ≠ "" := by
      rintro rfl
      cases hrest
    constructor
    · rintro ⟨path, hshows⟩
      exact .inr (hshows.exists_isToken hne)
    · rintro (hcontact | ⟨path, htoken⟩)
      · rw [hnone] at hcontact
        cases hcontact
      · exact ⟨_, render_of_isToken htoken⟩
  case isFalse =>
    obtain ⟨name, hname, rfl⟩ := Option.map_eq_some_iff.1 h
    have htoken := isToken_token (isTokenPath_of_contactField? hname)
    exact iff_of_true ⟨_, render_of_isToken htoken⟩
      (.inl (Option.isSome_iff_exists.2 ⟨name, hname⟩))

end Casework.Template
