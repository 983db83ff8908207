/-
  Casework.Proofs.Task.Lifetime

  The rows of tasks from their creation on. Whatever is asked for by whom, and whatever is read
  before others write, a row has an outcome exactly if it is an approval that is done, and a time of
  completion exactly if it is done; and what is done stays as it was done.
-/
import Casework.Proofs.Task.Office

namespace Casework

/-- Where no two tasks have the same id, each task is found by its own. -/
theorem Session.task?_of_mem {s : Session} (hunique : (s.working.tasks.map Task.id).Nodup)
    {t : Task} (ht : t ∈ s.working.tasks) : s.task? t.id t.org = some t := by
  have hown : Record.isOf t.id t.org t := Record.isOf_eq_true_iff.2 ⟨rfl, rfl⟩
  cases hfound : s.task? t.id t.org with
  | none => exact absurd hown (List.find?_eq_none.1 hfound t ht)
  | some u =>
    have hu : u ∈ s.working.tasks := List.mem_of_find?_eq_some hfound
    have hid : u.id = t.id := (Record.isOf_eq_true_iff.1 (List.find?_some hfound)).1
    rw [List.inj_on_of_nodup_map hunique hu ht hid]

namespace Task.Office

/-- What is so of the rows of all tasks, now and after more has happened. -/
structure RowsKept (f : Office) : Prop where
  /-- No two rows have the same id. -/
  unique : (f.session.working.tasks.map Task.id).Nodup
  /-- A row has an outcome exactly if it is an approval that is done, and a time of completion
  exactly if it is done. -/
  sound : ∀ t ∈ f.session.working.tasks, t.Sound
  /-- A row that is there is there later. -/
  stays : ∀ t ∈ f.session.working.tasks, ∀ more,
    ∃ t' ∈ (f.play more).session.working.tasks, t'.id = t.id
  /-- A row that is done stays as it was done. -/
  final : ∀ t ∈ f.session.working.tasks, t.isDone → ∀ more,
    ∀ t' ∈ (f.play more).session.working.tasks, t'.id = t.id →
      t'.status = t.status ∧ t'.outcome = t.outcome ∧ t'.comment = t.comment ∧
        t'.completed = t.completed

/-- From a store without tasks on, whatever tasks are created and whatever is done with them in
whatever order, the rows are sound and what is done is final. -/
theorem rowsKept_play {s : Session} (h : s.committed.tasks = []) (moves : List Move) :
    ((opened s).play moves).RowsKept := by
  have hproper := (Proper.opened s).play moves
  have hstart : (opened s).session.working.tasks = [] := h
  have hunique : (((opened s).play moves).session.working.tasks.map Task.id).Nodup :=
    hproper.later.unique (by rw [hstart]; exact List.nodup_nil)
  -- Every task that is there stays there, under its id, and is kept.
  have hkept : ∀ t ∈ ((opened s).play moves).session.working.tasks, ∀ more,
      ∃ t' ∈ (((opened s).play moves).play more).session.working.tasks,
        t'.id = t.id ∧ t.Kept t' := by
    intro t ht more
    have hlater := hproper.later_play more
    obtain ⟨t', ht', hkept⟩ := hlater.kept _ _ _ (Session.task?_of_mem hunique ht)
    have hid : t'.id = t.id := (Record.isOf_eq_true_iff.1 (List.find?_some ht')).1
    exact ⟨t', List.mem_of_find?_eq_some ht', hid, hkept⟩
  refine ⟨hunique, ?_, ?_, ?_⟩
  -- All tasks are new since the beginning, where there were none.
  · intro t ht
    refine hproper.later.fresh t.id t.org t ?_ (Session.task?_of_mem hunique ht)
    rw [Session.task?, hstart]
    rfl
  · intro t ht more
    obtain ⟨t', ht', hid, -⟩ := hkept t ht more
    exact ⟨t', ht', hid⟩
  -- Ids are unique, so the later row with the id is the one that was kept.
  · intro t ht hdone more u hu hsame
    obtain ⟨t', ht', hid, hkept⟩ := hkept t ht more
    have hunique' := (hproper.later_play more).unique hunique
    rw [List.inj_on_of_nodup_map hunique' hu ht' (hsame.trans hid.symm)]
    exact hkept.final hdone

theorem rowsKept_rivals :
    emptyStore.committed.tasks = [] ∧
      ((opened emptyStore).play rivals).RowsKept ∧
      ((opened emptyStore).play rivals).session.working.tasks.map Task.outcome =
        [some "rejected"] :=
  ⟨rfl, rowsKept_play rfl rivals, by decide⟩

end Task.Office
end Casework
