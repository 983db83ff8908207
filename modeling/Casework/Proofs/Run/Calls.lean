/-
  Casework.Proofs.Run.Calls

  The tasks that runs ask for. A run of a program asks for a task only where an instruction creates
  one. What it asks for is then the task that the instruction describes, with its texts rendered,
  for the execution and the organization that the run was given, and under the id of the
  instruction. This is so whatever the world answers, and whether the run ends well or not.
-/
import Casework.Proofs.Program.Authors
import Casework.Proofs.Run.Wait

namespace Casework

variable {σ : Type}

/-- The parameters ask for the task of an instruction, as it is rendered, for what a run is
about. -/
structure Instruction.Asks (i : Instruction) (base : Run.Base) (task : TaskPlan)
    (rendered params : Fields) : Prop where
  creates : i.operation = .work (.createTask task)
  renders : Run.Renders task.config rendered
  execution : params.value "workflow_execution_id" = base.execution
  org : params.value "org_id" = base.org
  step : params.value "step_id" = .text i.id
  config : params.value "config" = .object rendered

/-- The parameters ask for a task that the program creates. -/
def Program.Asks (p : Program) (base : Run.Base) (params : Fields) : Prop :=
  ∃ i ∈ p, ∃ task rendered, i.Asks base task rendered params

namespace Run

/-- What an instruction asks for when it is carried out. -/
theorem asks_of_renders {i : Instruction} {task : TaskPlan}
    (hcreates : i.operation = .work (.createTask task)) (base : Base) (contact : Json)
    {rendered : Fields}
    (hrenders : Renders ((i.toJson.field "config").orElse (.obj [])) rendered) :
    i.Asks base task rendered (base.params [
      ("contact_id", contact), ("step_id", i.toJson.field "id"),
        ("config", .object rendered)]) := by
  rw [i.field_config, hcreates] at hrenders
  exact ⟨hcreates, (task.orElse_config _) ▸ hrenders, rfl, rfl, i.field_id, rfl⟩

/-- Every call for a task, up to a moment of a run, asks for a task that the program creates. -/
def AsksOnly (p : Program) (base : Base) (s : RunState σ) : Prop :=
  ∀ params failure, (⟨.createTask, params⟩, failure) ∈ s.calls → p.Asks base params

/-- A run keeps that every call for a task asks for one that the program creates, if each single
call does. -/
theorem lasting_asksOnly (world : World σ) (p : Program) (base : Base) :
    Lasting world (fun _ => True) (p.Asks base) (fun _ => True) (AsksOnly p base)
      fun _ s => True ∧ AsksOnly p base s := by
  -- One more call is no harm if it asks for such a task, or for no task at all.
  have hcalled : ∀ {s s' : RunState σ} {call failure}, AsksOnly p base s →
    s.Called s' call failure →
      (call.activity = .createTask → p.Asks base call.params) → AsksOnly p base s' := by
    intro s s' call failure hs hcalled hcall params other hmem
    rw [hcalled.calls, List.mem_append, List.mem_singleton] at hmem
    rcases hmem with hmem | hlast
    · exact hs params other hmem
    · cases hlast
      exact hcall rfl
  have hperform : ∀ {activity params}, (activity = .createTask → p.Asks base params) →
      Keeps (perform world activity params) (AsksOnly p base) fun _ s => True ∧ AsksOnly p base s :=
    fun hasks => Ensures.perform (fun _ _ _ hs h => hcalled hs h hasks)
      fun _ _ _ hs h => ⟨trivial, hcalled hs h hasks⟩
  -- Only two of the acts call or change anything of this: the call for a task, and the wait, which
  -- calls nothing.
  refine {
    steady := fun s s' _ hhistory _ _ hs params failure hmem => ?_
    enter := fun _ _ hs => hs
    put := fun _ _ _ _ hs => hs
    work := fun _ hactivity => hperform fun hcreate => absurd hcreate hactivity
    create := fun hasks => hperform fun _ => hasks
    report := fun _ => hperform fun hcreate => by cases hcreate
    await := .of_always (fun s hs params failure hmem => ?_) fun _ _ _ => trivial
    fault := fun _ _ hs => ⟨trivial, hs⟩ }
  · rw [RunState.calls, hhistory] at hmem
    exact hs params failure hmem
  · rw [calls_await] at hmem
    exact hs params failure hmem

/-- A run of a program asks for no task but those that the program creates. -/
theorem asks_of_called {params : Fields} {p : Program}
    (hsteps : (params.value "steps").givenItemsOf = .ok (p.map Instruction.toJson))
    (world : World σ)
    {begun : RunState σ} (hbegun : begun.calls = []) {call : Fields} {failure : Option Failure}
    (hcall : (⟨.createTask, call⟩, failure) ∈ (outcome (run world params) begun).2.calls) :
    p.Asks (.given params) call := by
  have hlasting := lasting_asksOnly world p (.given params)
  have hrun : Keeps (run world params) (AsksOnly p (.given params))
      fun _ s => True ∧ AsksOnly p (.given params) s := by
    refine hlasting.run (fun _ _ hs => hs) (fun _ _ _ _ _ _ _ => trivial) fun s hs => ?_
    -- Every step of the run comes from an instruction, since the program is what the run was given.
    refine hlasting.interpret (fun _ h => ⟨trivial, h⟩) (fun step hstep => ?_) _ _
    obtain hsame : p.map Instruction.toJson = s.steps := by simpa [hsteps] using hs.steps
    rw [← hsame] at hstep
    obtain ⟨i, hi, rfl⟩ := List.mem_map.1 hstep
    refine hlasting.execute _ _ (fun _ => trivial) (fun htype rendered hrenders => ?_)
      (fun _ _ _ => trivial) fun _ => hlasting.awaitTask trivial (fun _ _ _ _ => trivial)
        (fun _ _ _ h _ => ⟨trivial, h⟩) fun task => hlasting.timeOut (fun _ _ _ _ _ => trivial) task
    obtain ⟨task, hcreates⟩ := exists_createTask_of_type htype
    rw [hs.base]
    exact ⟨i, hi, task, rendered, asks_of_renders hcreates _ _ hrenders⟩
  -- A run begins without calls.
  have hended := hrun begun fun _ _ hmem => by simp [hbegun] at hmem
  rcases houtcome : outcome (run world params) begun with ⟨result, s'⟩
  rw [houtcome] at hended hcall
  cases result with
  | ok _ => exact hended _ _ hcall
  | error f => exact hended.2 _ _ hcall

end Run
end Casework
