/-
  Casework.Proofs.Program.Choice

  Which track a branch leads into. A branch is planned with a value for every track but one, and its
  instruction looks for the value of its field among them. The track that is found so is the one
  that the branch of the definition chooses. Every track is chosen for some text, but for those
  whose value stands for an earlier track as well.
-/
import Casework.Proofs.Definition.Meaning
import Casework.Proofs.Program.Jump
import Casework.Proofs.Program.Planning
import Casework.Proofs.Program.StepId
import Mathlib.Data.List.Nodup
import Mathlib.Data.List.ReduceOption

namespace Casework

open Result

/-- Looking something up finds what stands at the place of its key. -/
theorem lookup_eq_idxOf? {α β : Type} [BEq α] [LawfulBEq α] (key : α) (entries : List (α × β)) :
    entries.lookup key =
      ((entries.map Prod.fst).idxOf? key).bind fun k => (entries[k]?).map Prod.snd := by
  induction entries with
  | nil => rfl
  | cons entry rest ih =>
    obtain ⟨other, value⟩ := entry
    rw [List.lookup_cons, List.map_cons, List.idxOf?_cons]
    by_cases h : key = other
    · simp [h]
    · have hne : (key == other) = false := beq_eq_false_iff_ne.2 h
      have hne' : (other == key) = false := beq_eq_false_iff_ne.2 fun he => h he.symm
      rw [hne, ih, hne']
      cases (rest.map Prod.fst).idxOf? key <;> simp

/-- A value is found at a place if it stands there, and not before. -/
theorem idxOf?_eq_some_iff_take {α : Type} [BEq α] [LawfulBEq α] {items : List α}
    {item : α} {k : Nat} :
    items.idxOf? item = some k ↔ items[k]? = some item ∧ item ∉ items.take k := by
  rw [List.idxOf?_eq_some_iff]
  constructor
  · rintro ⟨hlt, hitem, hbefore⟩
    refine ⟨List.getElem?_eq_some_iff.2 ⟨hlt, hitem⟩, fun hmem => ?_⟩
    obtain ⟨j, hj, hother⟩ := List.mem_take_iff_getElem.1 hmem
    exact hbefore j (by omega) hother
  · rintro ⟨hplace, hfirst⟩
    obtain ⟨hlt, hitem⟩ := List.getElem?_eq_some_iff.1 hplace
    refine ⟨hlt, hitem, fun j hj hother => hfirst ?_⟩
    exact List.mem_take_iff_getElem.2 ⟨j, by omega, hother⟩

/-- The value of a track stands for a track before it as well. -/
def BranchCondition.Repeats (c : BranchCondition) (k : Nat) : Prop :=
  c.operator = "in" ∧ ∃ values value, c.compareValue.texts? = some values ∧
    values[k]? = some value ∧ value ∈ values.take k

/-- If no value is there twice, no track repeats one. -/
theorem BranchCondition.not_repeats {c : BranchCondition}
    (h : (c.compareValue.texts?.getD []).Nodup)
    (k : Nat) : ¬ c.Repeats k := by
  rintro ⟨-, values, value, hvalues, hplace, hbefore⟩
  rw [hvalues, Option.getD_some] at h
  obtain ⟨hlt, rfl⟩ := List.getElem?_eq_some_iff.1 hplace
  obtain ⟨j, hj, hsame⟩ := List.mem_take_iff_getElem.1 hbefore
  have hjk : j = k := (List.Nodup.getElem_inj_iff h).1 hsame
  omega

namespace Plan

-- ============================================================================
-- The values of the tracks
-- ============================================================================

/-- The place of the value among the values of some tracks, or else of the track without a value. -/
def guardIndex? (guards : List (Option String)) (value : String) : Option Nat :=
  (guards.idxOf? (some value)).or (guards.idxOf? none)

theorem idxOf?_map_some (values : List String) (value : String) :
    (values.map some ++ [none]).idxOf? (some value) = values.idxOf? value := by
  induction values with
  | nil => rfl
  | cons first rest ih =>
    rw [List.map_cons, List.cons_append, List.idxOf?_cons, List.idxOf?_cons, ih]
    simp

theorem idxOf?_none (values : List String) :
    (values.map some ++ [none]).idxOf? none = some values.length := by
  induction values with
  | nil => rfl
  | cons first rest ih =>
    rw [List.map_cons, List.cons_append, List.idxOf?_cons, ih]
    simp

/-- A branch has a value for every track but one, and they choose the track that its condition
chooses. -/
theorem choice?_eq_guardIndex? {condition : BranchCondition} {tracks : Nat}
    {comparison : Comparison}
    {guards : List (Option String)} (h : guardsOf condition tracks = .ok (comparison, guards)) :
    guards.length = tracks ∧ ∀ value, ∃ index < tracks,
      condition.choice? tracks value = some index ∧ guardIndex? guards value = some index := by
  rw [guardsOf] at h
  split at h
  -- The operator for equality: the value, and then anything else.
  case h_1 expected hoperator hcompare =>
    split at h
    case isFalse => cases h
    case isTrue htracks =>
      cases h
      obtain rfl : tracks = 2 := by simpa using htracks
      refine ⟨rfl, fun value => ⟨if value = expected then 0 else 1, by split <;> decide, ?_, ?_⟩⟩
      · simp only [BranchCondition.choice?, hoperator, hcompare]
      · by_cases hvalue : value = expected
        · simp [guardIndex?, List.idxOf?_cons, hvalue]
        · simp [guardIndex?, List.idxOf?_cons, hvalue, Ne.symm hvalue]
  -- The operator for inequality, the other way round.
  case h_2 expected hoperator hcompare =>
    split at h
    case isFalse => cases h
    case isTrue htracks =>
      cases h
      obtain rfl : tracks = 2 := by simpa using htracks
      refine ⟨rfl, fun value => ⟨if value = expected then 1 else 0, by split <;> decide, ?_, ?_⟩⟩
      · simp only [BranchCondition.choice?, hoperator, hcompare]
      · by_cases hvalue : value = expected
        · simp [guardIndex?, List.idxOf?_cons, hvalue]
        · simp [guardIndex?, List.idxOf?_cons, hvalue, Ne.symm hvalue]
  -- The operator with a list: one track for each value, and one for all others.
  case h_3 _ hoperator =>
    split at h
    case h_2 => cases h
    case h_1 values hvalues =>
      split at h
      case isFalse => cases h
      case isTrue htracks =>
        cases h
        have htracks : values.length + 1 = tracks := by simpa using htracks
        refine ⟨by simpa using htracks, fun value =>
          ⟨(values.idxOf? value).getD values.length, ?_, ?_, ?_⟩⟩
        · cases hplace : values.idxOf? value with
          | none => rw [Option.getD_none]; omega
          | some place =>
            obtain ⟨hlt, -⟩ := List.idxOf?_eq_some_iff.1 hplace
            rw [Option.getD_some]
            omega
        · rw [BranchCondition.choice?, hoperator]
          simp only [hvalues, Option.map_some, ← htracks, Nat.add_sub_cancel]
        · rw [guardIndex?, idxOf?_map_some, idxOf?_none]
          cases values.idxOf? value <;> rfl
  case h_4 => cases h

-- ============================================================================
-- Tracks that are chosen
-- ============================================================================

/-- A track is chosen for some text if its value stands for no track before it. -/
theorem exists_guardIndex?_iff {guards : List (Option String)} {k : Nat} :
    (∃ value, guardIndex? guards value = some k) ↔
      ∃ guard, guards[k]? = some guard ∧ guard ∉ guards.take k := by
  constructor
  · rintro ⟨value, hindex⟩
    rcases Option.or_eq_some_iff.1 hindex with hvalue | ⟨-, hnone⟩
    · exact ⟨some value, idxOf?_eq_some_iff_take.1 hvalue⟩
    · exact ⟨none, idxOf?_eq_some_iff_take.1 hnone⟩
  · rintro ⟨guard, hguard⟩
    have hplace := idxOf?_eq_some_iff_take.2 hguard
    cases guard with
    | some value => exact ⟨value, Option.or_eq_some_iff.2 (.inl hplace)⟩
    | none =>
      -- The track without a value is chosen for any text that is no value.
      have hother : some (StepId.fresh guards.reduceOption "") ∉ guards := fun hmem =>
        StepId.fresh_not_mem guards.reduceOption "" (List.reduceOption_mem_iff.2 hmem)
      exact ⟨_, Option.or_eq_some_iff.2 (.inr ⟨List.idxOf?_eq_none_iff.2 hother, hplace⟩)⟩

/-- In a list of values with the track without one behind it, every value but the repeated ones is
new. -/
theorem exists_guard_map_some_iff {values : List String} {k : Nat} (hk : k ≤ values.length) :
    (∃ guard, (values.map some ++ [none])[k]? = some guard ∧
      guard ∉ (values.map some ++ [none]).take k) ↔
      ¬ ∃ value, values[k]? = some value ∧ value ∈ values.take k := by
  have htake : (values.map some ++ [none]).take k = (values.take k).map some := by
    rw [List.take_append_of_le_length (by rw [List.length_map]; exact hk), List.map_take]
  have hmem : ∀ value, some value ∈ (values.take k).map some ↔ value ∈ values.take k :=
    fun value => List.mem_map_of_injective fun _ _ => Option.some.inj
  rw [htake]
  rcases Nat.eq_or_lt_of_le hk with rfl | hlt
  · simp
  · rw [List.getElem?_append_left (by simpa using hlt)]
    simp [hlt, hmem, -List.map_take, -List.mem_map]

theorem guard_repeats_iff {condition : BranchCondition} {tracks : Nat} {comparison : Comparison}
    {guards : List (Option String)} (h : guardsOf condition tracks =
      .ok (comparison, guards)) {k : Nat}
    (hk : k < tracks) :
    (∃ guard, guards[k]? = some guard ∧ guard ∉ guards.take k) ↔ ¬ condition.Repeats k := by
  rw [guardsOf] at h
  split at h
  -- One value, and two tracks: neither repeats the other.
  case h_1 expected hoperator _ | h_2 expected hoperator _ =>
    split at h
    case isFalse => cases h
    case isTrue htracks =>
      cases h
      obtain rfl : tracks = 2 := by simpa using htracks
      obtain rfl | rfl : k = 0 ∨ k = 1 := by omega
      all_goals simp [BranchCondition.Repeats, hoperator]
  -- A track repeats if its value is among those before.
  case h_3 _ hoperator =>
    split at h
    case h_2 => cases h
    case h_1 values hvalues =>
      split at h
      case isFalse => cases h
      case isTrue htracks =>
        cases h
        obtain rfl : values.length + 1 = tracks := by simpa using htracks
        rw [exists_guard_map_some_iff (Nat.le_of_lt_succ hk)]
        simp [BranchCondition.Repeats, hoperator, hvalues]
  case h_4 => cases h

/-- Every track is chosen for some text, but for those whose value is repeated. -/
theorem exists_choice?_iff {condition : BranchCondition} {tracks : Nat} {comparison : Comparison}
    {guards : List (Option String)} (h : guardsOf condition tracks =
      .ok (comparison, guards)) {k : Nat}
    (hk : k < tracks) :
    (∃ value, condition.choice? tracks value = some k) ↔ ¬ condition.Repeats k := by
  rw [← guard_repeats_iff h hk, ← exists_guardIndex?_iff]
  refine exists_congr fun value => ?_
  obtain ⟨index, -, hchoice, hguard⟩ := (choice?_eq_guardIndex? h).2 value
  rw [hchoice, hguard]

-- ============================================================================
-- The targets of the tracks
-- ============================================================================

/-- The tracks of a plan have the values that its branch was given. -/
theorem map_fst_entries {keys : Entries String} {guards : List (Option String)}
    {tracks : List Casework.Track} {planned : List Track} (n : Nat)
    (h : tracksOf keys guards tracks = .ok planned) (hlength : guards.length = tracks.length) :
    (entries n planned).map Prod.fst = guards := by
  induction tracks generalizing guards planned n with
  | nil =>
    cases h
    rw [List.length_eq_zero_iff.1 hlength]
    rfl
  | cons track rest ih =>
    obtain ⟨id, label, steps⟩ := track
    obtain ⟨guard, guards, rfl⟩ := List.exists_cons_of_length_eq_add_one hlength
    obtain ⟨first, more, -, -, hmore, rfl⟩ := tracksOf_cons_eq_ok h
    rw [entries, List.map_cons, ih _ hmore (by simpa using hlength)]
    rfl

theorem lookup_targets (ids : Naming) (value : String) (es : List (Option String × Nat)) :
    (es.filterMap fun (guard, start) => guard.map fun value => (value, ids start)).lookup value =
      (es.lookup (some value)).map ids := by
  induction es with
  | nil => rfl
  | cons entry rest ih =>
    obtain ⟨guard, start⟩ := entry
    cases guard with
    | none => simpa [List.lookup_cons] using ih
    | some other =>
      by_cases h : value = other
      · simp [h]
      · have hne : (value == other) = false := beq_eq_false_iff_ne.2 h
        simpa [List.lookup_cons, hne] using ih

/-- The targets of a branch lead to the track that the values of the tracks choose. -/
theorem targetOf_targets (ids : Naming) {n : Nat} {tracks : List Track} {value : String}
    {index : Nat} {guard : Option String} {start : Nat}
    (hindex : guardIndex? ((entries n tracks).map Prod.fst) value = some index)
    (hentry : (entries n tracks)[index]? = some (guard, start)) :
    Walk.targetOf value (targets ids n tracks) (otherwise ids n tracks) = ids start := by
  rw [Walk.targetOf, targets, otherwise, lookup_targets, lookup_eq_idxOf?, lookup_eq_idxOf?]
  rw [guardIndex?] at hindex
  cases hvalue : ((entries n tracks).map Prod.fst).idxOf? (some value) with
  | some place =>
    obtain rfl : place = index := by simpa [hvalue] using hindex
    simp [hentry]
  | none =>
    rw [hvalue, Option.none_or] at hindex
    simp [hindex, hentry]

end Plan
end Casework
