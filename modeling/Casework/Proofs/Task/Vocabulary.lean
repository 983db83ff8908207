/-
  Casework.Proofs.Task.Vocabulary

  What the columns of a task can say. Every task of a run has a status and a kind that tasks can
  have, whatever is done with it. Its priority and its title are looked at only where somebody edits
  them: until then they are what the action has made them, which may be any text as the priority,
  and a title of blanks.
-/
import Casework.Proofs.Task.Provenance

namespace Casework

open Store Result

/-- What a column keeps of a document is what stands for it, or its own text. -/
theorem Column.text_of_orElse {j : Json} {alternative kept : String}
    (h : text (j.orElse (.text alternative)) = .ok (some kept)) :
    kept = alternative ∨ text j = .ok (some kept) := by
  rw [Json.orElse] at h
  split at h
  case isTrue => exact .inr h
  case isFalse => exact .inl (Option.some.inj (Except.ok.inj h)).symm

namespace Task

-- ============================================================================
-- New tasks
-- ============================================================================

section New

variable {plan : TaskPlan} {rendered : Fields} {t : Task}
    (hrenders : Run.Renders plan.config rendered)
  (hdescribes : Activities.Describes rendered t)

include hrenders hdescribes

/-- The kind of a new task is that of its plan. -/
theorem kind_of_describes : t.kind = plan.kind.word := by
  obtain ⟨kind, hcolumn, hkind⟩ := hdescribes.kind
  rw [hrenders.other "taskType" (by decide), plan.field_config.2.1] at hcolumn
  rw [hkind]
  cases hplan : plan.kind <;> rw [hplan] at hcolumn <;> cases hcolumn <;> rfl

/-- The priority of a new task is what its plan says, whatever text this is. -/
theorem priority_of_describes :
    t.priority ∈ priorities ∨ Column.text plan.priority = .ok (some t.priority) := by
  obtain ⟨priority, hcolumn, hpriority⟩ := hdescribes.priority
  rw [hrenders.other "priority" (by decide), plan.field_config.2.2.1] at hcolumn
  cases priority with
  | none => exact .inl (by rw [hpriority]; decide)
  | some text =>
    obtain rfl : t.priority = text := hpriority
    rcases Column.text_of_orElse hcolumn with hmedium | htext
    · exact .inl (by rw [hmedium]; decide)
    · exact .inr htext

/-- The title of a new task is that of its plan, as it is rendered, unless this is no text at
all. -/
theorem title_of_describes :
    Text.trim t.title ≠ "" ∨ ∃ vars, t.title = Template.render plan.title vars := by
  obtain ⟨vars, htitle⟩ := hrenders.title
  have hcolumn := hdescribes.title
  rw [htitle, plan.field_config.1] at hcolumn
  rcases Column.text_of_orElse hcolumn with huntitled | htext
  · exact .inl (by rw [huntitled]; decide)
  · exact .inr ⟨vars, (Option.some.inj (Except.ok.inj htext)).symm⟩

end New

-- ============================================================================
-- Tasks of runs
-- ============================================================================

/-- A task of a run has a status and a kind that tasks can have, whatever is done. Its priority is
one that tasks can have, or the one that its action gives; its title is not blank, or is the one
that the action has rendered. -/
theorem Arises.says {a : Trigger.Attempt} {s created : Session} {d : Definition} {p : Program}
    {id : String} (h : Arises a s d p id created) (deeds : List Deed) :
    ∃ (t : Task) (action : Action) (i : Instruction) (plan : TaskPlan),
      (Deed.performAll created deeds).task? id a.actor.org = some t ∧
        t.WrittenBy d p action i plan ∧
      t.status ∈ statuses ∧ t.kind ∈ kinds ∧
      (t.priority ∈ priorities ∨
        Column.text (action.config.value "priority") = .ok (some t.priority)) ∧
      (Text.trim t.title ≠ "" ∨ ∃ vars, t.title = Template.render plan.title vars) := by
  obtain ⟨t, action, i, plan, hfound, hwritten, -, -⟩ := h.written deeds
  obtain ⟨rendered, new, hrenders, hdescribes, hbecomes⟩ := hwritten.described
  refine ⟨t, action, i, plan, hfound, hwritten, ?_, ?_, ?_, ?_⟩
  -- A status is the one the task was created with or one that was checked when set.
  · rcases hbecomes.status with hsame | hset
    · rw [hsame, hdescribes.status]
      decide
    · exact hset
  · rw [hbecomes.kind, kind_of_describes hrenders hdescribes]
    cases plan.kind <;> decide
  · rcases hbecomes.priority with hsame | hset
    · rw [hsame]
      -- The priority comes from the plan, which takes it from the config or falls back to `medium`.
      refine (priority_of_describes hrenders hdescribes).elim .inl fun hplan => ?_
      rw [hwritten.describes.priority] at hplan
      rcases Column.text_of_orElse hplan with hmedium | hgiven
      · exact .inl (by rw [hmedium]; decide)
      · exact .inr hgiven
    · exact .inl hset
  · rcases hbecomes.title with hsame | hset
    · rw [hsame]
      exact title_of_describes hrenders hdescribes
    · exact .inl hset

section Asking

open Trigger

/-- The only action gives the priority that the task has. -/
theorem says_asking :
    ∃ d p created t action i plan, Arises (attemptWith {}) (storing asking) d p "task-1" created ∧
      created.task? "task-1" "org" = some t ∧ t.WrittenBy d p action i plan ∧
      t.status ∈ statuses ∧ t.kind ∈ kinds ∧
      Column.text (action.config.value "priority") = .ok (some "urgent") ∧
      ∃ vars, Template.render plan.title vars = " " := by
  obtain ⟨d, p, created, t, harises, -, hfound, -, hpriority, htitle⟩ := exists_arises_asking
  obtain ⟨t', action, i, plan, hfound', hwritten, hstatus, hkind, hgiven, hrendered⟩ :=
    harises.says []
  obtain rfl : t' = t := Option.some.inj (hfound'.symm.trans hfound)
  rw [hpriority] at hgiven
  rw [htitle] at hrendered
  obtain ⟨vars, htext⟩ := hrendered.resolve_left (by decide)
  exact ⟨d, p, created, t', action, i, plan, harises, hfound, hwritten, hstatus, hkind,
    hgiven.resolve_left (by decide), vars, htext.symm⟩

/-- A task of a run can have a priority that is none, and a blank title. -/
theorem not_all_say :
    (¬ ∀ (a : Attempt) (s created : Session) (d : Definition) (p : Program) (id : String)
      (deeds : List Deed) (t : Task), Arises a s d p id created →
      (Deed.performAll created deeds).task? id a.actor.org = some t → t.priority ∈ priorities) ∧
    ¬ ∀ (a : Attempt) (s created : Session) (d : Definition) (p : Program) (id : String)
      (deeds : List Deed) (t : Task), Arises a s d p id created →
      (Deed.performAll created deeds).task? id a.actor.org = some t → Text.trim t.title ≠ "" := by
  obtain ⟨d, p, created, t, harises, -, hfound, -, hpriority, htitle⟩ := exists_arises_asking
  constructor
  · intro h
    have hmem := h _ _ _ _ _ _ [] t harises hfound
    rw [hpriority] at hmem
    exact absurd hmem (by decide)
  · intro h
    have hnotBlank := h _ _ _ _ _ _ [] t harises hfound
    rw [htitle] at hnotBlank
    exact absurd hnotBlank (by decide)

end Asking

end Task
end Casework
