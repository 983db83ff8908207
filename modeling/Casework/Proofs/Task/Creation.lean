/-
  Casework.Proofs.Task.Creation

  Tasks that runs create. A new task is open, and nothing is known yet of how it will be done; the
  rows that were there before stay as they are, and no two rows have the same id.
-/
import Casework.Proofs.Result
import Casework.Proofs.Task.Answer
import Mathlib.Data.List.Nodup

namespace Casework

open Store Result

/-- What the store keeps of the columns of a draft. -/
structure TaskDraft.Yields (d : TaskDraft) (id org : Json) (t : Task) : Prop where
  id : Column.text id = .ok (some t.id)
  org : Column.text org = .ok (some t.org)
  execution : Column.text d.execution = .ok t.execution
  creator : Column.text d.creator = .ok t.creator
  title : Column.text d.title = .ok (some t.title)
  kind : ∃ kind, Column.text d.kind = .ok kind ∧ t.kind = kind.getD Task.standard
  status : ∃ status, Column.text d.status = .ok status ∧ t.status = status.getD Task.todo
  priority : ∃ priority, Column.text d.priority = .ok priority ∧
    t.priority = priority.getD Task.medium
  unstarted : t.outcome = none ∧ t.comment = none ∧ t.completed = none

/-- A draft yields the task that it is made into. -/
theorem TaskDraft.yields_of_task {d : TaskDraft} {id org : Json} {moment : Moment} {t : Task}
    (h : d.task id org moment = .ok t) : d.Yields id org t := by
  rw [TaskDraft.task] at h
  obtain ⟨_, hid, h⟩ := bind_eq_ok_iff.1 h
  obtain ⟨_, horg, h⟩ := bind_eq_ok_iff.1 h
  obtain ⟨execution, hexecution, h⟩ := bind_eq_ok_iff.1 h
  obtain ⟨_, -, h⟩ := bind_eq_ok_iff.1 h
  obtain ⟨creator, hcreator, h⟩ := bind_eq_ok_iff.1 h
  iterate 2 obtain ⟨_, -, h⟩ := bind_eq_ok_iff.1 h
  obtain ⟨_, htitle, h⟩ := bind_eq_ok_iff.1 h
  obtain ⟨_, -, h⟩ := bind_eq_ok_iff.1 h
  obtain ⟨kind, hkind, h⟩ := bind_eq_ok_iff.1 h
  obtain ⟨status, hstatus, h⟩ := bind_eq_ok_iff.1 h
  obtain ⟨priority, hpriority, h⟩ := bind_eq_ok_iff.1 h
  -- The columns are read; now those that must not be empty are taken.
  obtain ⟨_, hidTaken, h⟩ := bind_eq_ok_iff.1 h
  obtain ⟨_, horgTaken, h⟩ := bind_eq_ok_iff.1 h
  obtain ⟨_, htitleTaken, h⟩ := bind_eq_ok_iff.1 h
  obtain rfl := required_eq_ok hidTaken
  obtain rfl := required_eq_ok horgTaken
  obtain rfl := required_eq_ok htitleTaken
  cases h
  exact ⟨hid, horg, hexecution, hcreator, htitle, ⟨kind, hkind, rfl⟩, ⟨status, hstatus, rfl⟩,
    ⟨priority, hpriority, rfl⟩, rfl, rfl, rfl⟩

namespace Task

/-- A task is open, and nothing is known yet of how it will be done. -/
structure Unstarted (t : Task) : Prop where
  status : t.status = todo
  outcome : t.outcome = none
  comment : t.comment = none
  completed : t.completed = none

/-- A task that was not started is sound. -/
theorem Unstarted.sound {t : Task} (h : t.Unstarted) : t.Sound := by
  refine .of_open ?_ h.outcome h.completed
  rw [isDone, h.status]
  decide

/-- New tasks come behind those that are there. -/
def arriving : Progress where
  rel r r' := r'.executions = r.executions ∧
    (∃ new, r'.tasks = r.tasks ++ new ∧ ∀ t ∈ new, t.Unstarted) ∧
    ((r.tasks.map Task.id).Nodup → (r'.tasks.map Task.id).Nodup)
  refl r := ⟨rfl, ⟨[], by simp, by simp⟩, fun h => h⟩
  trans := by
    rintro a b c ⟨hexecutions, ⟨new, hnew, hall⟩, hnodup⟩
      ⟨hexecutions', ⟨new', hnew', hall'⟩, hnodup'⟩
    refine ⟨hexecutions'.trans hexecutions, ⟨new ++ new', ?_, ?_⟩, fun h => hnodup' (hnodup h)⟩
    · rw [hnew', hnew, List.append_assoc]
    · intro t ht
      exact (List.mem_append.1 ht).elim (hall t) (hall' t)

/-- The task of a draft without a status is open. -/
theorem unstarted_of_draft {d : TaskDraft} {id org : Json} {moment : Moment} {t : Task}
    (hstatus : d.status = .null) (h : d.task id org moment = .ok t) : t.Unstarted := by
  have hyields := TaskDraft.yields_of_task h
  obtain ⟨status, hcolumn, hkept⟩ := hyields.status
  rw [hstatus] at hcolumn
  cases hcolumn
  exact ⟨hkept, hyields.unstarted.1, hyields.unstarted.2.1, hyields.unstarted.2.2⟩

theorem moves_createTask (org : Json) {d : TaskDraft} (hstatus : d.status = .null) :
    Moves arriving (Store.createTask org d) := by
  -- To hand out an id touches no task.
  have hidentify : ∀ given, Moves arriving (identify .task given) := by
    intro given
    rw [identify]
    exact .ite (.map _ (.freshId _)) (.pure _)
  refine .bind (hidentify _) fun id => .bind .bareNow fun moment =>
    .liftColumn_bind fun t ht => .bind (.add t fun records hclash => ?_) fun _ => .pure _
  refine ⟨rfl, ⟨[t], rfl, ?_⟩, ?_⟩
  · intro u hu
    obtain rfl := List.mem_singleton.1 hu
    exact unstarted_of_draft hstatus ht
  -- The new task clashes with none, so its id is another one.
  · intro hnodup
    show ((records.tasks ++ [t]).map Task.id).Nodup
    rw [List.map_append, List.map_singleton, List.nodup_append]
    refine ⟨hnodup, List.nodup_singleton _, ?_⟩
    rintro id hid _ hnew rfl
    obtain rfl := List.mem_singleton.1 hnew
    obtain ⟨u, hu, hsame⟩ := List.mem_map.1 hid
    have hnone := List.any_eq_false.1 hclash u hu
    exact hnone (beq_iff_eq.2 hsame.symm)

theorem moves_dueAfter {R : Progress} (days : Json) : Moves R (Activities.dueAfter days) := by
  rw [Activities.dueAfter]
  split
  · exact .pure _
  · refine .bind (.liftFault _) fun days => .bind .now fun moment => ?_
    split
    · exact .pure _
    · exact .throw _

/-- What creates a task for a run does nothing else to the tasks. -/
theorem moves_activity (params : Fields) : Moves arriving (Activities.createTask params) := by
  have hnotices : ∀ records l, arriving.rel records { records with notices := l } :=
    fun _ _ => ⟨rfl, ⟨[], by simp, by simp⟩, fun h => h⟩
  refine .bind (.liftFault _) fun config => .bind (.liftFault _) fun assignment =>
    .bind (moves_dueAfter _) fun due => .bind (.liftFault _) fun org =>
      .bind (moves_createTask org rfl) fun t =>
        .ite (.bind (moves_tellAssigned (fun _ _ _ => hnotices _ _) _ _ _ _) fun _ =>
          .pure _) (.pure _)

-- ============================================================================
-- Sessions
-- ============================================================================

/-- A session in which tasks have only arrived comes later. -/
theorem later_of_arriving {s s' : Session} (hs' : s'.Settled)
    (h : arriving.rel s.working s'.working) : s.Later s' := by
  obtain ⟨hexecutions, ⟨new, hnew, hall⟩, hunique⟩ := h
  refine ⟨hs', ?_, ?_, hexecutions, hunique⟩
  · intro id org t ht
    refine ⟨t, ?_, .refl t⟩
    rw [Session.task?, hnew, List.find?_append]
    rw [Session.task?] at ht
    rw [ht]
    rfl
  · intro id org t' hnone hsome
    rw [Session.task?] at hnone
    rw [Session.task?, hnew, List.find?_append, hnone, Option.none_or] at hsome
    exact (hall t' (List.mem_of_find?_eq_some hsome)).sound

/-- A run that creates a task leads to a later session. -/
theorem later_create (params : Fields) {s : Session} (hs : s.Settled) :
    s.Later (transact (Activities.createTask params) s).2 := by
  obtain ⟨hsettled, harriving, -⟩ := (moves_activity params).transact hs
  exact later_of_arriving hsettled harriving

end Task
end Casework
