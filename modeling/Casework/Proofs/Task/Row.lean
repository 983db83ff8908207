/-
  Casework.Proofs.Task.Row

  What happens to the rows of tasks. Whatever is asked for, a task keeps its kind, a task that is
  done keeps how it was done, and the row stays sound: it has an outcome exactly if it is an
  approval that is done, and a time of completion exactly if it is done. One condition is left to
  whoever asks: no approval is marked as done by its status.
-/
import Casework.Task.Changes
import Mathlib.Logic.Basic

namespace Casework

namespace Task

-- ============================================================================
-- Rows
-- ============================================================================

/-- A row has an outcome exactly if it is an approval that is done, and a time of completion exactly
if it is done. -/
structure Sound (t : Task) : Prop where
  outcome : t.outcome.isSome ↔ t.isDone ∧ t.isApproval
  completed : t.completed.isSome ↔ t.isDone

/-- A sound task that is not done has neither outcome nor time of completion. -/
theorem Sound.none_of_open {t : Task} (h : t.Sound) (hopen : ¬ t.isDone) :
    t.outcome = none ∧ t.completed = none := by
  have houtcome := h.outcome
  have hcompleted := h.completed
  rw [iff_false_right (fun hdone => hopen hdone.1), Option.not_isSome_iff_eq_none] at houtcome
  rw [iff_false_right hopen, Option.not_isSome_iff_eq_none] at hcompleted
  exact ⟨houtcome, hcompleted⟩

/-- A task that is not done is sound without outcome and time of completion. -/
theorem Sound.of_open {t : Task} (hopen : ¬ t.isDone) (houtcome : t.outcome = none)
    (hcompleted : t.completed = none) : t.Sound :=
  ⟨by simp [houtcome, hopen], by simp [hcompleted, hopen]⟩

/-- What a row keeps from one moment to a later one. -/
structure Kept (t t' : Task) : Prop where
  kind : t'.kind = t.kind
  execution : t'.execution = t.execution
  final : t.isDone →
    t'.status = t.status ∧ t'.outcome = t.outcome ∧ t'.comment = t.comment ∧
      t'.completed = t.completed
  sound : t.Sound → t'.Sound

namespace Kept

variable {t t' t'' : Task}

theorem refl (t : Task) : Kept t t :=
  ⟨rfl, rfl, fun _ => ⟨rfl, rfl, rfl, rfl⟩, fun h => h⟩

/-- A done task stays done. -/
theorem isDone (h : Kept t t') (hdone : t.isDone) : t'.isDone := by
  rw [Task.isDone, (h.final hdone).1]
  exact hdone

/-- A task keeps its kind. -/
theorem isApproval (h : Kept t t') : t'.isApproval = t.isApproval := by
  rw [Task.isApproval, h.kind]
  rfl

theorem trans (h : Kept t t') (h' : Kept t' t'') : Kept t t'' where
  kind := h'.kind.trans h.kind
  execution := h'.execution.trans h.execution
  final hdone := by
    obtain ⟨hstatus, houtcome, hcomment, hcompleted⟩ := h.final hdone
    obtain ⟨hstatus', houtcome', hcomment', hcompleted'⟩ := h'.final (h.isDone hdone)
    exact ⟨hstatus'.trans hstatus, houtcome'.trans houtcome, hcomment'.trans hcomment,
      hcompleted'.trans hcompleted⟩
  sound hsound := h'.sound (h.sound hsound)

end Kept

/-- A write may be asked for: no approval is done by its status, no decision is without an outcome,
and no open status is the one of tasks that are done. -/
def Write.Safe (t : Task) : Write → Prop
  | .claim _ => True
  | .complete => t.isApproval = false
  | .decide outcome _ => outcome.isSome
  | .setOpen status => status ≠ done

/-- A row that was open keeps what it keeps whatever it has become, if it is sound again. -/
theorem Kept.of_open {t t' : Task} (hopen : ¬ t.isDone) (hkind : t'.kind = t.kind)
    (hexecution : t'.execution = t.execution) (hsound : t.Sound → t'.Sound) : Kept t t' :=
  ⟨hkind, hexecution, fun hdone => absurd hdone hopen, hsound⟩

theorem Write.kept {w : Write} {t : Task} (happlies : w.applies t) (hsafe : w.Safe t)
    (moment : Moment) : Kept t (w.apply moment t) := by
  cases w with
  | claim user =>
    exact ⟨rfl, rfl, fun _ => ⟨rfl, rfl, rfl, rfl⟩, fun h => ⟨h.outcome, h.completed⟩⟩
  | complete =>
    -- The write applies to open tasks only, so there is no final state to keep.
    have hopen : ¬ t.isDone := by simpa [Write.applies] using happlies
    have hkind : t.isApproval = false := hsafe
    refine .of_open hopen rfl rfl fun hsound => ?_
    obtain ⟨houtcome, -⟩ := hsound.none_of_open hopen
    have hkind' : (Write.complete.apply moment t).isApproval = false := hkind
    have houtcome' : (Write.complete.apply moment t).outcome = none := houtcome
    exact ⟨by simp [houtcome', hkind'], iff_of_true rfl rfl⟩
  | decide outcome comment =>
    have happlies : ¬ t.isDone ∧ t.isApproval := by simpa [Write.applies] using happlies
    have hsome : outcome.isSome := hsafe
    exact .of_open happlies.1 rfl rfl fun _ =>
      ⟨iff_of_true hsome ⟨rfl, happlies.2⟩, iff_of_true rfl rfl⟩
  | setOpen status =>
    have hopen : ¬ t.isDone := by simpa [Write.applies] using happlies
    -- The status written is an open one, by the guard of the operation that writes it.
    have hopen' : ¬ ((Write.setOpen status).apply moment t).isDone := by
      have hstatus : status ≠ done := hsafe
      simpa [Write.apply, isDone] using hstatus
    refine .of_open hopen rfl rfl fun hsound => ?_
    obtain ⟨houtcome, hcompleted⟩ := hsound.none_of_open hopen
    exact .of_open hopen' houtcome hcompleted

/-- Editing changes nothing of how a task was done. -/
theorem kept_changes (c : Changes) (moment : Moment) (t : Task) : Kept t (c.apply moment t).bare :=
  ⟨rfl, rfl, fun _ => ⟨rfl, rfl, rfl, rfl⟩, fun h => ⟨h.outcome, h.completed⟩⟩

end Task
end Casework
