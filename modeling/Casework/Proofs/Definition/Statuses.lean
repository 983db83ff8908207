/-
  Casework.Proofs.Definition.Statuses

  The status that executions of a definition begin with. If a definition has no issues it is a
  declared one: the one that its trigger names, or one than which no other has a lesser order.
-/
import Casework.Definition.Reading
import Casework.Definition.Validation
import Casework.Execution.Status
import Casework.Proofs.Number.Order

namespace Casework

-- ============================================================================
-- The least order
-- ============================================================================

/-- No status of some has a lesser order than this one. -/
def Status.IsLeast (s : Status) (statuses : List Status) : Prop :=
  s ∈ statuses ∧ ∀ other ∈ statuses, other.order.lt s.order = false

/-- Of two statuses the lesser is the second if it comes before the first, and the first
otherwise. -/
theorem lesserStatus_eq_or (least other : Status) :
    lesserStatus least other = other ∧ other.order.lt least.order ∨
      lesserStatus least other = least ∧ other.order.lt least.order = false := by
  rw [lesserStatus]
  cases h : other.order.lt least.order with
  | true => exact .inl ⟨rfl, rfl⟩
  | false => exact .inr ⟨rfl, rfl⟩

/-- What is not less than the present least status is not less than the lesser one of it and
another. -/
theorem lt_lesserStatus {least other : Status} {n : Number} (h : n.lt least.order = false) :
    n.lt (lesserStatus least other).order = false := by
  rcases lesserStatus_eq_or least other with ⟨heq, hless⟩ | ⟨heq, -⟩
  · rw [heq]
    by_contra hbelow
    rw [Number.lt_trans (Bool.not_eq_false _ ▸ hbelow) hless] at h
    cases h
  · rw [heq]
    exact h

/-- The lesser status does not come behind the second one. -/
theorem lt_other_lesserStatus (least other : Status) :
    other.order.lt (lesserStatus least other).order = false := by
  rcases lesserStatus_eq_or least other with ⟨heq, -⟩ | ⟨heq, hnot⟩
  · rw [heq]
    exact other.order.lt_irrefl
  · rw [heq]
    exact hnot

/-- The least of some statuses, beginning with one, is one of them, and no number that is not below
the one, or that is the order of another, is below it. -/
theorem foldl_lesserStatus (first : Status) (rest : List Status) :
    rest.foldl lesserStatus first ∈ first :: rest ∧
      ∀ n : Number, n.lt first.order = false ∨ n ∈ rest.map Status.order →
        n.lt (rest.foldl lesserStatus first).order = false := by
  -- By induction on the statuses that are left, with the least so far in front.
  induction rest generalizing first with
  | nil => exact ⟨List.mem_singleton.2 rfl, fun n hn => hn.resolve_right List.not_mem_nil⟩
  | cons other rest ih =>
    obtain ⟨hmem, hleast⟩ := ih (lesserStatus first other)
    rw [List.foldl_cons]
    constructor
    · rcases lesserStatus_eq_or first other with ⟨heq, -⟩ | ⟨heq, -⟩
      · rw [heq] at hmem ⊢
        exact List.mem_cons_of_mem _ hmem
      · rw [heq] at hmem ⊢
        exact List.mem_cons.2 ((List.mem_cons.1 hmem).imp_right (List.mem_cons_of_mem _))
    · intro n hn
      refine hleast n ?_
      rw [List.map_cons, List.mem_cons] at hn
      rcases hn with hn | rfl | hn
      · exact .inl (lt_lesserStatus hn)
      · exact .inl (lt_other_lesserStatus first other)
      · exact .inr hn

/-- Some statuses have a least one. -/
theorem exists_leastStatus {statuses : List Status} (h : statuses ≠ []) :
    ∃ s, leastStatus statuses = some s ∧ s.IsLeast statuses := by
  cases statuses with
  | nil => exact absurd rfl h
  | cons first rest =>
    obtain ⟨hmem, hleast⟩ := foldl_lesserStatus first rest
    refine ⟨_, rfl, hmem, fun other hother => hleast _ ?_⟩
    rcases List.mem_cons.1 hother with rfl | hother
    · exact .inl other.order.lt_irrefl
    · exact .inr (List.mem_map_of_mem hother)

-- ============================================================================
-- The initial status
-- ============================================================================

/-- A status that executions begin with: the one that the trigger names, or the id of a declared one
of least order. -/
def Definition.Begins (d : Definition) (status : String) : Prop :=
  match d.trigger.initialStatus with
  | some named => status = named
  | none => ∃ s : Status, s.IsLeast d.statuses ∧ status = s.id

/-- A text that is not blank is not empty. -/
theorem Json.ne_empty_of_nonBlank? {j : Json} {s : String} (h : j.nonBlank? = some s) : s ≠ "" := by
  cases j with
  | text t =>
    rw [nonBlank?] at h
    split at h
    case isTrue => cases h
    case isFalse hnonempty =>
      cases h
      exact fun hempty => hnonempty (beq_iff_eq.2 hempty)
  | _ => cases h

/-- A trigger that was read from a document names no empty status. -/
theorem Trigger.initialStatus_ofJson (j : Json) : (Trigger.ofJson j).initialStatus ≠ some "" := by
  intro h
  cases j with
  | object fields =>
    rw [ofJson] at h
    split at h
    · exact Json.ne_empty_of_nonBlank? h rfl
    · cases h
  | _ => cases h

/-- A definition that was read does not name the empty text as its initial status. -/
theorem Definition.initialStatus_ofJson {j : Json} {d : Definition}
    (h : Definition.ofJson j = .ok d) :
    d.trigger.initialStatus ≠ some "" := by
  cases j with
  | object fields =>
    rw [ofJson] at h
    split at h
    split at h
    case isTrue =>
      cases h
      exact Trigger.initialStatus_ofJson _
    case isFalse => cases h
  | _ => cases h

/-- The initial status of a definition that was read and has no issues is a declared one. -/
theorem Definition.begins_initialStatus {d : Definition}
    (hnamed : d.trigger.initialStatus ≠ some "")
    (h : d.issues = []) : d.Begins d.initialStatus ∧ d.initialStatus ∈ d.statusIds := by
  rw [issues, List.append_eq_nil_iff, List.append_eq_nil_iff] at h
  obtain ⟨⟨hstatuses, htrigger⟩, -⟩ := h
  rw [Begins, initialStatus]
  cases hinitial : d.trigger.initialStatus with
  -- The trigger names a status, which the check of the trigger finds among the declared ones.
  | some status =>
    have hsome : (status == "") = false :=
      beq_eq_false_iff_ne.2 fun h => hnamed (by rw [hinitial, h])
    rw [Validation.checkTrigger, hinitial] at htrigger
    simp only [hsome, Bool.false_or] at htrigger ⊢
    refine ⟨rfl, ?_⟩
    by_contra hnot
    rw [if_neg (by simpa using hnot)] at htrigger
    cases htrigger
  -- It names none; there are statuses, so one of them is least.
  | none =>
    have hne : d.statuses ≠ [] := by
      rintro hnone
      rw [hnone] at hstatuses
      cases hstatuses
    obtain ⟨s, hleast, hisLeast⟩ := exists_leastStatus hne
    have hordered : initialStatus.ordered d = s.id := by
      rw [initialStatus.ordered, hleast]
      rfl
    simp only [hordered]
    exact ⟨⟨s, hisLeast, rfl⟩, List.mem_map_of_mem hisLeast.1⟩

end Casework
