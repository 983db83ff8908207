/-
  Casework.Proofs.Template.Reference

  What a reference is, said of the characters that spell it and of those around it, and that the
  pattern of references finds at each place the longest one that starts there. The first name of a
  path takes every character that it can when a point follows; otherwise it gives characters back
  until it ends at a word boundary, and so does a second name. What comes out is the longest,
  because a point is no part of a name.
-/
import Casework.Proofs.Template.Cutting
import Casework.Template.Reference
import Mathlib.Data.List.TakeWhile

namespace Casework.Template

-- ============================================================================
-- Spellings
-- ============================================================================

/-- Letters, digits, underscores and hyphens, at least one. -/
structure IsName (cs : List Char) : Prop where
  ne_nil : cs ≠ []
  all : ∀ c ∈ cs, isNameChar c

/-- A name, or two with a point between them. -/
inductive IsPath : List Char → Prop where
  | plain {name : List Char} (h : IsName name) : IsPath name
  | dotted {name field : List Char} (h : IsName name) (hfield : IsName field) :
    IsPath (name ++ '.' :: field)

/-- What every reference begins with. -/
def lead : List Char := "var-".toList

/-- A word boundary lies between the characters `front` and `after`. -/
def Ends (front after : List Char) : Prop := Text.isBoundary front.getLast? after.head?

/-- The characters `spelling`, with `before` in front of them and `after` behind them, are a
reference. -/
structure IsReference (before : Option Char) (spelling after : List Char) : Prop where
  spelled : ∃ path, IsPath path ∧ spelling = lead ++ path
  opens : Text.isBoundary before spelling.head?
  closes : Ends spelling after

/-- No reference starts at the characters. -/
def NoneStarts (before : Option Char) (cs : List Char) : Prop :=
  ∀ spelling after, cs = spelling ++ after → ¬ IsReference before spelling after

/-- The reference at a place: of all that start there the longest. -/
structure Found (before : Option Char) (spelling after : List Char) : Prop where
  reference : IsReference before spelling after
  longest : ∀ longer rest, spelling ++ after = longer ++ rest → IsReference before longer rest →
    longer.length ≤ spelling.length

theorem IsPath.ne_nil {cs : List Char} (h : IsPath cs) : cs ≠ [] := by
  cases h with
  | plain h => exact h.ne_nil
  | dotted h hfield => exact List.append_ne_nil_of_left_ne_nil h.ne_nil _

theorem IsReference.ne_nil {before : Option Char} {spelling after : List Char}
    (h : IsReference before spelling after) : spelling ≠ [] := by
  obtain ⟨path, -, rfl⟩ := h.spelled
  exact List.append_ne_nil_of_left_ne_nil (by decide) _

/-- There is one longest reference at most. -/
theorem Found.unique {before : Option Char} {spelling after spelling' after' : List Char}
    (h : Found before spelling after) (h' : Found before spelling' after')
    (hsame : spelling ++ after = spelling' ++ after') : spelling = spelling' ∧ after = after' :=
  List.append_inj hsame (Nat.le_antisymm (h'.longest _ _ hsame.symm h.reference)
    (h.longest _ _ hsame h'.reference))

-- ============================================================================
-- Longest starts
-- ============================================================================

/-- The length of the longest start of the characters that has a form and ends at a word boundary,
zero if there is none. -/
structure LongestEnd (form : List Char → Prop) (cs : List Char) (n : Nat) : Prop where
  ends : n ≠ 0 → ∃ front after, cs = front ++ after ∧ form front ∧ Ends front after ∧
    front.length = n
  longest : ∀ front after, cs = front ++ after → form front → Ends front after → front.length ≤ n

theorem ends_cons {c : Char} {front after : List Char} (hne : front ≠ []) :
    Ends (c :: front) after ↔ Ends front after := by
  obtain ⟨d, rest, rfl⟩ := List.exists_cons_of_ne_nil hne
  rw [Ends, List.getLast?_cons_cons]
  rfl

theorem ends_append {front more after : List Char} (hne : more ≠ []) :
    Ends (front ++ more) after ↔ Ends more after := by
  rw [Ends, List.getLast?_append_of_ne_nil _ hne]
  rfl

theorem longestEnd_lastBoundary (limit : Nat) (cs : List Char) :
    LongestEnd (fun front => front ≠ [] ∧ front.length ≤ limit) cs (lastBoundary limit cs) := by
  induction cs generalizing limit with
  | nil =>
    have hzero : lastBoundary limit [] = 0 := by cases limit <;> rfl
    rw [hzero]
    refine ⟨fun h => absurd rfl h, fun front after hcs hfront _ => ?_⟩
    exact absurd (List.append_eq_nil_iff.1 hcs.symm).1 hfront.1
  | cons c rest ih =>
    cases limit with
    | zero =>
      refine ⟨fun h => absurd rfl h, fun front after _ hfront _ => ?_⟩
      exact hfront.2
    | succ limit =>
      obtain ⟨hends, hlongest⟩ := ih limit
      -- A start of more than one character ends where a start of the rest does.
      have hmore : ∀ front after, c :: rest = front ++ after → front ≠ [] ∧
        front.length ≤ limit + 1 →
          Ends front after → front.length ≤ lastBoundary limit rest + 1 := by
        intro front after hcs hfront hend
        obtain ⟨d, front, rfl⟩ := List.exists_cons_of_ne_nil hfront.1
        obtain ⟨rfl, hrest⟩ := List.cons.inj hcs
        rcases eq_or_ne front [] with rfl | hne
        · exact Nat.succ_le_succ (Nat.zero_le _)
        · have hlimit : front.length ≤ limit := Nat.le_of_succ_le_succ hfront.2
          exact Nat.succ_le_succ (hlongest front after hrest ⟨hne, hlimit⟩ ((ends_cons hne).1 hend))
      rw [lastBoundary]
      cases hn : lastBoundary limit rest with
      | succ n =>
        rw [hn] at hends hmore
        refine ⟨fun _ => ?_, hmore⟩
        obtain ⟨front, after, rfl, hfront, hend, hlength⟩ := hends n.succ_ne_zero
        exact ⟨c :: front, after, rfl, ⟨List.cons_ne_nil c front, Nat.succ_le_succ hfront.2⟩,
          (ends_cons hfront.1).2 hend, congrArg Nat.succ hlength⟩
      | zero =>
        rw [hn] at hmore
        dsimp only
        split
        case isTrue hboundary =>
          refine ⟨fun _ => ⟨[c], rest, rfl, ⟨List.cons_ne_nil c [], ?_⟩, hboundary, rfl⟩, hmore⟩
          exact Nat.succ_le_succ (Nat.zero_le limit)
        case isFalse hboundary =>
          refine ⟨fun h => absurd rfl h, fun front after hcs hfront hend => ?_⟩
          have hone : front.length = 1 :=
            Nat.le_antisymm (hmore front after hcs hfront hend) (List.length_pos_iff.2 hfront.1)
          obtain ⟨d, rfl⟩ := List.length_eq_one_iff.1 hone
          obtain ⟨rfl, rfl⟩ := List.cons.inj hcs
          exact absurd hend hboundary

/-- The names at the start of characters are as long as the characters of names reach, or
shorter. -/
theorem isName_iff {front : List Char} (after : List Char) :
    IsName front ↔ front ≠ [] ∧ front.length ≤ ((front ++ after).takeWhile isNameChar).length := by
  constructor
  · intro h
    rw [List.takeWhile_append_of_pos h.all, List.length_append]
    exact ⟨h.ne_nil, Nat.le_add_right _ _⟩
  · rintro ⟨hne, hlength⟩
    have hstart : front <+: (front ++ after).takeWhile isNameChar :=
      List.prefix_of_prefix_length_le (List.prefix_append front after)
        (List.takeWhile_prefix _) hlength
    exact ⟨hne, fun c hc => List.mem_takeWhile_imp (hstart.subset hc)⟩

/-- A bounded name is the longest name that ends there. -/
theorem longestEnd_boundedName (cs : List Char) : LongestEnd IsName cs (boundedName cs) := by
  obtain ⟨hends, hlongest⟩ := longestEnd_lastBoundary (cs.takeWhile isNameChar).length cs
  refine ⟨fun hn => ?_, fun front after hcs hname hend => ?_⟩
  · obtain ⟨front, after, hcs, hfront, hend, hlength⟩ := hends hn
    subst hcs
    exact ⟨front, after, rfl, (isName_iff after).2 hfront, hend, hlength⟩
  · subst hcs
    exact hlongest front after rfl ((isName_iff after).1 hname) hend

/-- Before a point a name reaches as far as its characters do. -/
theorem takeWhile_isNameChar {name rest : List Char} (h : IsName name) :
    (name ++ '.' :: rest).takeWhile isNameChar = name := by
  rw [List.takeWhile_append_of_pos h.all, List.takeWhile_cons_of_neg (by decide), List.append_nil]

/-- A point and a name behind it. -/
def IsField (cs : List Char) : Prop := ∃ name, IsName name ∧ cs = '.' :: name

theorem IsField.ne_nil {cs : List Char} (h : IsField cs) : cs ≠ [] := by
  obtain ⟨name, -, rfl⟩ := h
  exact List.cons_ne_nil _ _

/-- A bounded field is the longest field that ends there. -/
theorem longestEnd_boundedField (cs : List Char) : LongestEnd IsField cs (boundedField cs) := by
  unfold boundedField
  split
  case h_1 rest =>
    obtain ⟨hends, hlongest⟩ := longestEnd_boundedName rest
    -- A field at the start is a name at the start of what follows the point.
    have hfield : ∀ front after, '.' :: rest = front ++ after → IsField front → Ends front after →
        front.length ≤ boundedName rest + 1 ∧ boundedName rest ≠ 0 := by
      rintro front after hcs ⟨name, hname, rfl⟩ hend
      have hlength := hlongest name after (List.cons.inj hcs).2 hname
        ((ends_cons hname.ne_nil).1 hend)
      refine ⟨Nat.succ_le_succ hlength, fun hzero => ?_⟩
      rw [hzero] at hlength
      exact hname.ne_nil (List.length_eq_zero_iff.1 (Nat.le_zero.1 hlength))
    cases hn : boundedName rest with
    | zero =>
      refine ⟨fun h => absurd rfl h, fun front after hcs hfront hend => ?_⟩
      exact absurd hn (hfield front after hcs hfront hend).2
    | succ n =>
      rw [hn] at hends hfield
      refine ⟨fun _ => ?_, fun front after hcs hfront hend =>
        (hfield front after hcs hfront hend).1⟩
      obtain ⟨name, after, rfl, hname, hend, hlength⟩ := hends n.succ_ne_zero
      exact ⟨'.' :: name, after, rfl, ⟨name, hname, rfl⟩, (ends_cons hname.ne_nil).2 hend,
        congrArg Nat.succ hlength⟩
  case h_2 hpoint =>
    refine ⟨fun h => absurd rfl h, ?_⟩
    rintro front after rfl ⟨name, -, rfl⟩ -
    exact absurd rfl (hpoint (name ++ after))

/-- A path is a name, or a name with a field behind it, which then is all that can be one. -/
theorem isPath_iff {name rest front after : List Char}
    (hname : (name ++ rest).takeWhile isNameChar = name)
    (hcs : name ++ rest = front ++ after) :
    IsPath front ↔ IsName front ∨ ∃ field, IsName name ∧ IsField field ∧ front = name ++ field ∧
      rest = field ++ after := by
  constructor
  · intro h
    cases h with
    | plain h => exact .inl h
    | @dotted name' field h hfield =>
      have hsame : name' = name := by
        rw [← hname, hcs, List.append_assoc, List.cons_append, takeWhile_isNameChar h]
      subst hsame
      rw [List.append_assoc] at hcs
      exact .inr ⟨'.' :: field, h, ⟨field, hfield, rfl⟩, rfl, List.append_cancel_left hcs⟩
  · rintro (h | ⟨_, hname, ⟨field, hfield, rfl⟩, rfl, -⟩)
    · exact .plain h
    · exact .dotted hname hfield

/-- A bounded path is the longest path that ends there. -/
theorem longestEnd_boundedPath (cs : List Char) : LongestEnd IsPath cs (boundedPath cs) := by
  have hsplit : cs.takeWhile isNameChar ++ cs.drop (cs.takeWhile isNameChar).length = cs :=
    List.prefix_iff_eq_append.1 (List.takeWhile_prefix _)
  have hrun : ∀ c ∈ cs.takeWhile isNameChar, isNameChar c := fun c hc => List.mem_takeWhile_imp hc
  rw [boundedPath]
  generalize hname : cs.takeWhile isNameChar = name at hsplit hrun ⊢
  generalize cs.drop name.length = rest at hsplit ⊢
  subst hsplit
  -- A name is not longer than the run of characters of names.
  have hplain : ∀ front after, name ++ rest = front ++ after → IsName front →
      front.length ≤ name.length := by
    intro front after hcs hfront
    have hlength := ((isName_iff after).1 hfront).2
    rwa [← hcs, hname] at hlength
  split
  case isTrue hempty =>
    obtain rfl : name = [] := List.length_eq_zero_iff.1 (beq_iff_eq.1 hempty)
    refine ⟨fun h => absurd rfl h, fun front after hcs hpath _ => ?_⟩
    obtain hfront | ⟨_, hnil, -⟩ := (isPath_iff hname hcs).1 hpath
    · exact hplain front after hcs hfront
    · exact absurd rfl hnil.ne_nil
  case isFalse hnonempty =>
    have hisName : IsName name := ⟨fun hnil => hnonempty (by rw [hnil]; rfl), hrun⟩
    obtain ⟨hends, hlongest⟩ := longestEnd_boundedField rest
    cases hfield : boundedField rest with
    | zero =>
      rw [hfield] at hlongest
      obtain ⟨hends, hlongestName⟩ := longestEnd_boundedName (name ++ rest)
      refine ⟨fun hn => ?_, fun front after hcs hpath hend => ?_⟩
      · obtain ⟨front, after, hcs, hfront, hend, hlength⟩ := hends hn
        exact ⟨front, after, hcs, .plain hfront, hend, hlength⟩
      · obtain hfront | ⟨field, -, hisField, rfl, hrest⟩ := (isPath_iff hname hcs).1 hpath
        · exact hlongestName front after hcs hfront hend
        · have hlength := hlongest field after hrest hisField ((ends_append hisField.ne_nil).1 hend)
          exact absurd (List.length_eq_zero_iff.1 (Nat.le_zero.1 hlength)) hisField.ne_nil
    | succ n =>
      rw [hfield] at hends hlongest
      refine ⟨fun _ => ?_, fun front after hcs hpath hend => ?_⟩
      · obtain ⟨_, after, rfl, ⟨field, hisField, rfl⟩, hend, hlength⟩ := hends n.succ_ne_zero
        refine ⟨name ++ '.' :: field, after, (List.append_assoc ..).symm,
          .dotted hisName hisField, ?_, ?_⟩
        · exact (ends_append (List.cons_ne_nil '.' field)).2 hend
        · rw [List.length_append, hlength]
      · obtain hfront | ⟨field, -, hisField, rfl, hrest⟩ := (isPath_iff hname hcs).1 hpath
        · exact (hplain front after hcs hfront).trans (Nat.le_add_right _ _)
        · have hlength := hlongest field after hrest hisField ((ends_append hisField.ne_nil).1 hend)
          rw [List.length_append]
          exact Nat.add_le_add_left hlength _

-- ============================================================================
-- The pattern
-- ============================================================================

/-- Behind the lead of a reference the pattern reads the longest path. -/
theorem referencePattern_lead (before : Option Char) (rest : List Char) :
    referencePattern before (lead ++ rest) =
      if Text.isBoundary before (some 'v') then
        match boundedPath rest with
        | 0 => none
        | n + 1 => some ⟨String.ofList ((lead ++ rest).take (n + 5)), n + 4⟩
      else none := rfl

/-- Without the lead there is no reference. -/
theorem referencePattern_of_not_lead {before : Option Char} {cs : List Char} (h : ¬ lead <+: cs) :
    referencePattern before cs = none := by
  unfold referencePattern
  split
  case h_1 rest => exact absurd ⟨rest, rfl⟩ h
  case h_2 => rfl

/-- A reference is the lead of references and a path that ends at a word boundary. -/
theorem isReference_lead_iff {before : Option Char} {front after : List Char} :
    IsReference before (lead ++ front) after ↔
      Text.isBoundary before (some 'v') ∧ IsPath front ∧ Ends front after := by
  constructor
  · rintro ⟨⟨path, hpath, hsame⟩, hopens, hcloses⟩
    obtain rfl := List.append_cancel_left hsame
    exact ⟨hopens, hpath, (ends_append hpath.ne_nil).1 hcloses⟩
  · rintro ⟨hopens, hpath, hend⟩
    exact ⟨⟨front, hpath, rfl⟩, hopens, (ends_append hpath.ne_nil).2 hend⟩

/-- At each place the pattern finds the longest reference that starts there, and nothing if none
does. -/
theorem referencePattern_cases (before : Option Char) (cs : List Char) :
    (referencePattern before cs = none ∧ NoneStarts before cs) ∨
      ∃ spelling after, cs = spelling ++ after ∧ Found before spelling after ∧
        referencePattern before cs = some ⟨String.ofList spelling, spelling.length - 1⟩ := by
  by_cases hlead : lead <+: cs
  case neg =>
    refine .inl ⟨referencePattern_of_not_lead hlead, ?_⟩
    rintro spelling after rfl href
    obtain ⟨path, -, rfl⟩ := href.spelled
    exact hlead ⟨path ++ after, (List.append_assoc ..).symm⟩
  case pos =>
    obtain ⟨rest, rfl⟩ := hlead
    -- Every reference at the start is the lead and a path at the start of the rest.
    have hsplit : ∀ spelling after, lead ++ rest = spelling ++ after →
      IsReference before spelling after →
        ∃ front, spelling = lead ++ front ∧ rest = front ++ after ∧
          Text.isBoundary before (some 'v') ∧ IsPath front ∧ Ends front after := by
      intro spelling after hcs href
      obtain ⟨front, -, rfl⟩ := id href.spelled
      rw [List.append_assoc] at hcs
      exact ⟨front, rfl, List.append_cancel_left hcs, isReference_lead_iff.1 href⟩
    obtain ⟨hends, hlongest⟩ := longestEnd_boundedPath rest
    rw [referencePattern_lead]
    by_cases hopens : Text.isBoundary before (some 'v')
    case neg =>
      rw [if_neg hopens]
      refine .inl ⟨rfl, fun spelling after hcs href => ?_⟩
      obtain ⟨front, -, -, hopens', -⟩ := hsplit spelling after hcs href
      exact hopens hopens'
    case pos =>
      rw [if_pos hopens]
      cases hn : boundedPath rest with
      | zero =>
        rw [hn] at hlongest
        refine .inl ⟨rfl, fun spelling after hcs href => ?_⟩
        obtain ⟨front, -, hrest, -, hpath, hend⟩ := hsplit spelling after hcs href
        have hlength := hlongest front after hrest hpath hend
        exact hpath.ne_nil (List.length_eq_zero_iff.1 (Nat.le_zero.1 hlength))
      | succ n =>
        rw [hn] at hends hlongest
        obtain ⟨front, after, rfl, hpath, hend, hlength⟩ := hends n.succ_ne_zero
        have hlengthLead : (lead ++ front).length = n + 5 := by
          rw [List.length_append, hlength]
          exact Nat.add_comm 4 (n + 1)
        refine .inr ⟨lead ++ front, after, (List.append_assoc ..).symm,
          ⟨isReference_lead_iff.2 ⟨hopens, hpath, hend⟩, fun longer rest' hcs href => ?_⟩, ?_⟩
        · rw [List.append_assoc] at hcs
          obtain ⟨front', rfl, hrest', -, hpath', hend'⟩ := hsplit longer rest' hcs href
          rw [hlengthLead, List.length_append]
          exact (Nat.add_le_add_left (hlongest front' rest' hrest' hpath' hend') 4).trans_eq
            (Nat.add_comm 4 (n + 1))
        · dsimp only
          rw [← List.append_assoc, ← hlengthLead, List.take_left, hlengthLead]
          rfl

/-- The pattern finds a reference that is there. -/
theorem referencePattern_of_found {before : Option Char} {spelling after : List Char}
    (h : Found before spelling after) :
    referencePattern before (spelling ++ after) =
      some ⟨String.ofList spelling, spelling.length - 1⟩ := by
  obtain ⟨-, hnone⟩ | ⟨spelling', after', hcs, hfound, hpattern⟩ :=
    referencePattern_cases before (spelling ++ after)
  · exact absurd h.reference (hnone _ _ rfl)
  · rw [hpattern, (h.unique hfound hcs).1]

/-- The pattern finds nothing where no reference starts. -/
theorem referencePattern_of_noneStarts {before : Option Char} {cs : List Char}
    (h : NoneStarts before cs) :
    referencePattern before cs = none := by
  obtain ⟨hpattern, -⟩ | ⟨spelling, after, hcs, hfound, -⟩ := referencePattern_cases before cs
  · exact hpattern
  · exact absurd hfound.reference (h _ _ hcs)

/-- A text is walked through from one reference to the next, and over the characters at which none
starts. -/
theorem reference_induction {motive : Option Char → List Char → Prop}
    (nil : ∀ before, motive before [])
    (keep : ∀ before c rest, NoneStarts before (c :: rest) → motive (some c) rest →
      motive before (c :: rest))
    (found : ∀ before spelling after, Found before spelling after → motive spelling.getLast? after →
      motive before (spelling ++ after))
    (before : Option Char) (cs : List Char) : motive before cs := by
  induction hn : cs.length using Nat.strong_induction_on generalizing before cs with
  | _ n ih =>
    subst hn
    obtain ⟨-, hnone⟩ | ⟨spelling, after, rfl, hfound, -⟩ := referencePattern_cases before cs
    · cases cs with
      | nil => exact nil before
      | cons c rest => exact keep before c rest hnone (ih _ (Nat.lt_succ_self _) _ _ rfl)
    · refine found before spelling after hfound (ih _ ?_ _ _ rfl)
      have hpos : 0 < spelling.length := List.length_pos_iff.2 hfound.reference.ne_nil
      rw [List.length_append]
      exact Nat.lt_add_of_pos_left hpos

end Casework.Template
