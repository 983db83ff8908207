/-
  Casework.Proofs.Program.AuthoredId

  Which authored ids are kept. An id in which no underscore follows another one is what sanitizing
  makes of itself, and no numbered id is like that. So such an id is handed out to the text that
  suggests it unless it was handed out before, to a text of which sanitizing makes the same. The
  instruction of an action therefore has the id of the action exactly if nothing that is named
  before it suggests this id.
-/
import Casework.Proofs.Program.Authors
import Casework.Proofs.Program.Census
import Casework.Proofs.Template.Token

namespace Casework

-- ============================================================================
-- Clean ids
-- ============================================================================

namespace StepId

/-- An id in which no underscore follows another one. -/
structure IsClean (id : String) : Prop where
  isId : IsId id
  single : id.toList.IsChain fun a b => a ≠ '_' ∨ b ≠ '_'

/-- The characters of ids may stand in the paths of tokens. -/
theorem isPathChar_of_isIdChar {c : Char} (h : isIdChar c) : Template.isPathChar c := by
  simp only [isIdChar, Bool.or_eq_true] at h
  simp only [Template.isPathChar, Bool.or_eq_true]
  tauto

/-- Nothing is squeezed where no underscore follows another one. -/
theorem squeeze_eq_self {after : Bool} {cs : List Char} (hafter : after → cs.head? ≠ some '_')
    (h : cs.IsChain fun a b => a ≠ '_' ∨ b ≠ '_') : squeeze after cs = cs := by
  induction cs generalizing after with
  | nil => rfl
  | cons c rest ih =>
    obtain ⟨hnext, hrest⟩ := List.isChain_cons.1 h
    rw [squeeze]
    by_cases hc : c = '_'
    -- A dash below: neither the character before nor the one behind is one.
    · subst hc
      have hfirst : after = false := by
        cases after with
        | false => rfl
        | true => exact absurd rfl (hafter rfl)
      have hother : rest.head? ≠ some '_' := fun hhead =>
        (hnext '_' hhead).elim (absurd rfl) (absurd rfl)
      rw [hfirst, if_pos (by decide), if_neg (by decide), ih (fun _ => hother) hrest]
    · have hplain : (c == '_') = false := beq_eq_false_iff_ne.2 hc
      rw [hplain, if_neg (by decide), ih (by simp) hrest]

namespace IsClean

variable {id : String} (h : IsClean id)

include h

/-- Sanitizing keeps a clean id. -/
theorem sanitize_eq : sanitize id = id := by
  have hblank : ∀ c ∈ id.toList, Text.isBlank c = false := fun c hc =>
    Template.isBlank_of_isPathChar (isPathChar_of_isIdChar (h.isId.2 c hc))
  have htrimmed : Text.Trimmed id.toList :=
    ⟨fun c hc => hblank c (List.mem_of_mem_head? hc),
      fun c hc => hblank c (List.mem_of_getLast? hc)⟩
  have hsafe : id.toList.map safeChar = id.toList :=
    (List.map_congr_left fun c hc => if_pos (h.isId.2 c hc)).trans (List.map_id' _)
  have hnonempty : id.toList.isEmpty = false := by
    rw [List.isEmpty_eq_false_iff]
    exact fun hnil => h.isId.1 (String.toList_inj.1 hnil)
  have hsqueezed : squeeze false ((Text.trimChars id.toList).map safeChar) = id.toList := by
    rw [htrimmed.trimChars_eq, hsafe, squeeze_eq_self (by simp) h.single]
  rw [sanitize, hsqueezed, hnonempty, if_neg Bool.false_ne_true, String.ofList_toList]

/-- An id that has no number behind it is not a numbered one. -/
theorem ne_numbered (other : String) (n : Nat) : numbered other n ≠ id := by
  rintro rfl
  have hchain := h.single
  rw [toList_numbered] at hchain
  obtain ⟨hpair, -⟩ := List.isChain_cons_cons.1 hchain.right_of_append
  simp at hpair

/-- A clean id is handed out to a text of which sanitizing makes it, if it is free. -/
theorem fresh_eq_iff {used : List String} {base : String} :
    fresh used base = id ↔ sanitize base = id ∧ id ∉ used := by
  rw [fresh]
  split
  case isTrue htaken =>
    have htaken : sanitize base ∈ used := by simpa using htaken
    obtain ⟨k, -, hnumbered, -⟩ := firstFree_eq_numbered used (sanitize base) used.length 1
    rw [hnumbered]
    refine ⟨fun hsame => absurd hsame (h.ne_numbered _ k), ?_⟩
    rintro ⟨rfl, hfree⟩
    exact absurd htaken hfree
  case isFalse hfree =>
    have hfree : sanitize base ∉ used := by simpa using hfree
    refine ⟨?_, And.left⟩
    rintro rfl
    exact ⟨rfl, hfree⟩

/-- The clean ids that are used after some texts are those used before and those that the texts
suggest. -/
theorem mem_used_iff (used bases : List String) :
    id ∈ (freshAll used bases).2 ↔ id ∈ used ∨ ∃ base ∈ bases, sanitize base = id := by
  induction bases generalizing used with
  | nil => simp [freshAll]
  | cons base rest ih =>
    have hfirst : id = fresh used base ↔ sanitize base = id ∧ id ∉ used :=
      eq_comm.trans h.fresh_eq_iff
    have hrest := ih (fresh used base :: used)
    rw [List.mem_cons, hfirst] at hrest
    rw [List.exists_mem_cons_iff]
    refine Iff.trans hrest ?_
    by_cases hused : id ∈ used
    · simp [hused]
    · simp [hused]

end IsClean

/-- Ids for more texts are handed out after those for the first ones. -/
theorem freshAll_append (used bases more : List String) :
    (freshAll used (bases ++ more)).1 =
      (freshAll used bases).1 ++ (freshAll (freshAll used bases).2 more).1 := by
  induction bases generalizing used with
  | nil => rfl
  | cons base rest ih => rw [List.cons_append, freshAll_cons, ih]; rfl

/-- The id that is handed out to a text depends on the texts before it. -/
theorem getElem?_freshAll (used before : List String) (base : String) (after : List String) :
    (freshAll used (before ++ base :: after)).1[before.length]? =
      some (fresh (freshAll used before).2 base) := by
  rw [freshAll_append, List.getElem?_append_right (by rw [length_freshAll]), length_freshAll,
    Nat.sub_self, freshAll_cons]
  rfl

/-- A clean id is kept exactly if no text before it suggests it. -/
theorem IsClean.fresh_eq_self_iff {id : String} (h : IsClean id) (before : List String) :
    fresh (freshAll [] before).2 id = id ↔ ∀ base ∈ before, sanitize base ≠ id := by
  rw [h.fresh_eq_iff, h.mem_used_iff]
  simp [h.sanitize_eq]

end StepId

-- ============================================================================
-- Actions and their ids
-- ============================================================================

namespace Source

/-- The action that an instruction is written for, if there is one. -/
def action? : Source → Option Action
  | .action _ _ authored => some authored
  | _ => none

/-- An instruction does work exactly if an action stands behind it. -/
theorem Writes.isWork_eq {keys : Entries String} {source : Source} {i : Instruction}
    (h : source.Writes keys i) : i.isWork = source.action?.isSome := by
  cases source with
  | start trigger contactRequired => rw [show i = _ from h]; rfl
  | action head index action => obtain ⟨work, -, -, hi⟩ := h; rw [hi]; rfl
  | wait head => obtain ⟨creator, days, hi⟩ := h; rw [hi]; rfl
  | anchor head => rw [show i = _ from h]; rfl
  | test branch => obtain ⟨field, comparison, targets, otherwise, -, hi⟩ := h; rw [hi]; rfl
  | skip head index => obtain ⟨merge, hi⟩ := h; rw [hi]; rfl
  | merge head => obtain ⟨follow, hi⟩ := h; rw [hi]; rfl
  | ending => rw [show i = _ from h]; rfl

end Source

/-- The actions behind the deeds of a step are its actions, in order. -/
theorem StandardStep.filterMap_action?_deeds (s : StandardStep) :
    s.deeds.filterMap Source.action? = s.actions := by
  have hfirst : s.doings.filterMap Source.action? = s.actions.zipIdx.map Prod.fst := by
    rw [doings, List.filterMap_map, ← List.filterMap_eq_map]
    rfl
  have hdoings : s.doings.filterMap Source.action? = s.actions := by
    rw [hfirst, List.zipIdx_map_fst]
  rw [deeds, List.filterMap_append, hdoings]
  split <;> exact List.append_nil _

/-- The actions behind the sources of a definition are all its actions, in order. -/
theorem Definition.filterMap_action?_sources (d : Definition) :
    d.sources.filterMap Source.action? = d.actions := by
  have hdeeds : d.sources.filterMap Source.action? =
      (d.sources.filter (Source.plays .deed)).filterMap Source.action? := by
    rw [List.filterMap_filter]
    refine List.filterMap_congr fun source _ => ?_
    cases source <;> rfl
  rw [hdeeds, filter_deed_sources, sourcesOf, List.filterMap_flatMap]
  simp only [StandardStep.filterMap_action?_deeds]
  rfl

namespace Plan

variable {keys : Entries String} {ids : Naming} {n : Nat} {bases : List String}

/-- The instructions that ask for work stand for the actions among their sources, one by one. -/
theorem stands_actions {sources : List Source} {code : List Instruction}
    (h : List.Forall₂ (Stands keys ids n bases) sources code) :
    List.Forall₂ (fun action i => ∃ source : Source, source.action? = some action ∧
        Stands keys ids n bases source i)
      (sources.filterMap Source.action?) (code.filter Instruction.isWork) := by
  induction h with
  | nil => exact .nil
  | @cons source i sources code hfirst _ ih =>
    have hwork := hfirst.1.isWork_eq
    cases haction : source.action? with
    | none =>
      rw [haction] at hwork
      rw [List.filterMap_cons_none haction, List.filter_cons_of_neg (by simp [hwork])]
      exact ih
    | some action =>
      rw [haction] at hwork
      rw [List.filterMap_cons_some haction, List.filter_cons_of_pos (by simp [hwork])]
      exact .cons ⟨source, haction, hfirst⟩ ih

end Plan

/-- What stands at a place of a list splits it there. -/
theorem exists_append_of_getElem? {α : Type} {items : List α} {k : Nat} {item : α}
    (h : items[k]? = some item) :
    ∃ before after, items = before ++ item :: after ∧ k = before.length := by
  obtain ⟨hk, hitem⟩ := List.getElem?_eq_some_iff.1 h
  refine ⟨items.take k, items.drop (k + 1), ?_, (List.length_take_of_le hk.le).symm⟩
  rw [← hitem, List.getElem_cons_drop, List.take_append_drop]

namespace Definition

variable {d : Definition} {p : Program}

/-- An action with an id suggests it for its instruction. The id of the instruction is handed out to
the place of this suggestion. -/
theorem Authors.exists_named {action : Action} {i : Instruction} (h : d.compile = .ok p)
    (hauthors : d.Authors p action i) (hid : action.id ≠ "") :
    ∃ plan before after, Plan.ofDefinition d = .ok plan ∧ p = plan.program ∧
      plan.bases = before ++ action.id :: after ∧
      i.id = StepId.fresh (StepId.freshAll [] before).2 action.id := by
  obtain ⟨steps, hplanned, rfl⟩ := exists_plan_of_compile h
  -- Sources and instructions stand side by side, with the texts that the ids come from; among the
  -- sources with an action these are the actions.
  have hsources := Plan.stands_program ⟨d.trigger, d.contactRequired, steps⟩ hplanned
  have hactions := Plan.stands_actions hsources
  have hall : List.filterMap Source.action?
      (.start d.trigger d.contactRequired :: stepsSources d.steps ++ [.ending]) = d.actions :=
    d.filterMap_action?_sources
  rw [hall] at hactions
  obtain ⟨source, haction, -, m, hbase, hnumber⟩ := (List.forall₂_iff_zip.1 hactions).2 hauthors
  -- The source is the action itself.
  obtain ⟨head, index, rfl⟩ : ∃ head index, source = .action head index action := by
    cases source with
    | action head index authored =>
      cases haction
      exact ⟨head, index, rfl⟩
    | _ => cases haction
  rw [Source.base, if_neg (by simpa using hid)] at hbase
  obtain ⟨before, after, hbases, rfl⟩ := exists_append_of_getElem? hbase
  -- The id is the one that is handed out at this place of the list.
  refine ⟨_, before, after, ?_, rfl, hbases, ?_⟩
  · rw [Plan.ofDefinition, hplanned]
    rfl
  · have hname := StepId.getElem?_freshAll [] before action.id after
    rw [hnumber, Nat.zero_add, Plan.namingOf, List.getD_eq_getElem?_getD, Plan.names, hbases, hname,
      Option.getD_some]

end Definition
end Casework
