/-
  Casework.Proofs.Run.Seeded

  Which of the first variables a run keeps. Every first variable has a path of two parts: a space,
  which is that of the contact, of the custom values or of the workflow, and a name behind it. What
  a run puts later it puts under the ids of those instructions of its program that create tasks.
  There is one dot in such a path, so a variable can only be overwritten by an instruction whose id
  is its space. Nothing keeps the two apart: a task whose action is called "custom" is decided over
  custom values.
-/
import Casework.Proofs.Run.Wait
import Mathlib.Data.List.Basic

namespace Casework

open Result

variable {σ : Type}

-- ============================================================================
-- Paths
-- ============================================================================

/-- The spaces of the first variables. -/
def Variables.spaces : List String := ["contact", "custom", "workflow"]

/-- The path of a variable in a space. -/
def Variables.pathIn (space name : String) : String := space ++ "." ++ name

/-- A path with one dot only tells its space and its name. -/
theorem Variables.pathIn_inj {a b x y : String} (ha : '.' ∉ a.toList) (hx : '.' ∉ x.toList)
    (h : pathIn a x = pathIn b y) : a = b ∧ x = y := by
  have htext := congrArg String.toList h
  simp only [pathIn, String.toList_append, List.append_assoc] at htext
  obtain ⟨hspace, -, hname⟩ := (List.append_cons_inj_of_notMem ha hx).1 htext
  exact ⟨String.toList_inj.1 hspace, String.toList_inj.1 hname⟩

theorem StepId.IsId.not_mem_dot {id : String} (h : StepId.IsId id) : '.' ∉ id.toList :=
  fun hdot => absurd (h.2 '.' hdot) (by decide)

-- ============================================================================
-- First variables
-- ============================================================================

namespace Variables

/-- Every variable is in one of the spaces of the first variables. -/
def InSpaces (vars : Variables) : Prop :=
  ∀ path value, vars.get? path = some value → ∃ space ∈ spaces, ∃ name, path = pathIn space name

/-- A variable that is put into one of the spaces keeps all of them there. -/
theorem InSpaces.put {vars : Variables} (h : vars.InSpaces) {space : String}
    (hspace : space ∈ spaces)
    (name : String) (value : Json) : InSpaces (vars.put (pathIn space name) value) := by
  intro path other hother
  rw [Entries.get?_put] at hother
  split at hother
  case isTrue hsame => exact ⟨space, hspace, name, hsame⟩
  case isFalse => exact h path other hother

theorem contactPath_eq (name : String) : Template.contactPath name = pathIn "contact" name := rfl

theorem customPath_eq (name : String) : Template.customPath name = pathIn "custom" name := rfl

/-- The fields of a contact are put into the space for contacts. -/
theorem InSpaces.putContactField {vars : Variables} (h : vars.InSpaces) (name : String)
    (value : Json) :
    (vars.putContactField name value).InSpaces := by
  have hcontact : "contact" ∈ spaces := by decide
  rw [Variables.putContactField]
  split
  · rw [contactPath_eq, contactPath_eq]
    exact (h.put hcontact _ _).put hcontact _ _
  · rw [contactPath_eq]
    exact h.put hcontact _ _

/-- Custom variables are put into the space for them. -/
theorem InSpaces.putCustom {vars : Variables} (h : vars.InSpaces) (custom : List Declared) :
    (vars.putCustom custom).InSpaces := by
  have hcustom : "custom" ∈ spaces := by decide
  rw [Variables.putCustom]
  refine List.foldlRecOn custom _ h fun vars hvars d _ => ?_
  rw [customPath_eq, customPath_eq]
  exact (hvars.put hcustom _ _).put hcustom _ _

/-- The first variables of a run are in the spaces of first variables. -/
theorem inSpaces_of_initial {contact declarations workflow : Json} {vars : Variables}
    (h : initial contact declarations workflow = .ok vars) : vars.InSpaces := by
  obtain ⟨contactFields, -, h⟩ := bind_eq_ok_iff.1 h
  obtain ⟨custom, -, h⟩ := bind_eq_ok_iff.1 h
  obtain ⟨workflowFields, -, h⟩ := bind_eq_ok_iff.1 h
  cases h
  have hnone : InSpaces (Entries.empty : Variables) := by
    intro path value hvalue
    cases hvalue
  refine List.foldlRecOn _ _ (.putCustom (List.foldlRecOn _ _ hnone ?_) _) ?_
  · exact fun vars hvars field _ => hvars.putContactField field.1 field.2
  · have hworkflow : "workflow" ∈ spaces := by decide
    exact fun vars hvars field _ => hvars.put hworkflow field.1 _

end Variables

-- ============================================================================
-- What programs put
-- ============================================================================

/-- The names under which it is kept what is known about the task of an instruction. -/
def Run.taskNames : List String := "taskId" :: decisionNames

/-- An instruction of the program creates a task, and something about that task is put here. -/
def Program.Puts (p : Program) (path : String) : Prop :=
  ∃ i ∈ p, (∃ task, i.operation = .work (.createTask task)) ∧
    ∃ name ∈ Run.taskNames, path = Variables.pathIn i.id name

/-- No instruction of the program puts a variable with this name into the space: the name is none of
those under which tasks are kept, or no task is created under the space. -/
def Program.Spares (p : Program) (space name : String) : Prop :=
  name ∈ Run.taskNames → ∀ i ∈ p, ∀ task, i.operation = .work (.createTask task) → i.id ≠ space

/-- A program does not put the variables that it spares. -/
theorem Program.Spares.not_puts {p : Program} (hids : ∀ i ∈ p, StepId.IsId i.id)
    {space name : String}
    (h : p.Spares space name) :
    ¬ p.Puts (Variables.pathIn space name) := by
  rintro ⟨i, hi, ⟨task, hcreates⟩, written, hwritten, hpath⟩
  have hplain : ∀ other ∈ Run.taskNames, '.' ∉ other.toList := by decide
  obtain ⟨rfl, rfl⟩ :=
    Variables.pathIn_inj (hids i hi).not_mem_dot (hplain written hwritten) hpath.symm
  exact h hwritten i hi task hcreates rfl

namespace Run

/-- What no instruction puts lasts. -/
theorem lasting_unput (world : World σ) {p : Program} {path : String} (h : ¬ p.Puts path)
    (value : Option Json) :
    Lasting world (fun _ => True) (fun _ => True) p.Puts (fun s => s.vars.get? path = value)
      fun _ s => True ∧ s.vars.get? path = value := by
  have hput : ∀ (vars : Variables) (other : String) (new : Json), p.Puts other →
      vars.get? path = value → (vars.put other new).get? path = value := by
    intro vars other new hother hvars
    have hne : path ≠ other := fun hsame => h (hsame ▸ hother)
    rwa [Entries.get?_put, if_neg hne]
  exact (lasting_vars world (fun vars => vars.get? path = value) hput).mono
    fun _ _ hs => ⟨trivial, hs.2⟩

section Steps

variable {world : World σ} {p : Program} {inv : RunState σ → Prop}
  {bad : Failure → RunState σ → Prop}
  (h : Lasting world (fun _ => True) (fun _ => True) p.Puts inv bad)
  (horphaned : ∀ f s, inv s → bad f s) (hlinked : p.LinkedFrom 0 p)

include h horphaned hlinked

/-- What survives the variables that a program puts is kept by each of its instructions. -/
theorem Lasting.instruction (base : Base) (contact statuses : Json) {i : Instruction} (hi : i ∈ p) :
    Ensures (Run.execute world base contact statuses i.toJson) inv (Stepped inv inv bad) := by
  refine h.execute contact statuses (fun htype => ?_) (fun _ _ _ => trivial) (fun _ _ _ => trivial)
    fun htype => ?_
  · rw [i.field_id]
    exact ⟨i, hi, exists_createTask_of_type htype, "taskId", by decide, rfl⟩
  · obtain ⟨creator, days, hwait⟩ := exists_awaitTask_of_type htype
    refine h.awaitTask trivial (fun other hother name hname => ?_)
      (fun _ _ s hs _ => horphaned _ s hs)
      fun task => h.timeOut (fun _ _ _ _ _ => trivial) task
    -- What is decided is put under the instruction that created the task.
    rw [i.field_config, hwait] at hother
    obtain rfl : other = .text creator := by
      cases hother
      rfl
    obtain ⟨j, hj⟩ := List.getElem?_of_mem hi
    obtain ⟨m, hawaited⟩ := hlinked.exists_awaited hj hwait
    obtain ⟨c, task, hc, rfl, hcreates⟩ := hawaited.creates
    exact ⟨c, List.mem_of_getElem? hc, ⟨task, hcreates⟩, name, List.mem_cons_of_mem _ hname, rfl⟩

/-- It is kept by the steps of a run of the program. -/
theorem Lasting.steps {s : Setup} (hsteps : s.steps = p.map Instruction.toJson) :
    Ensures (Run.interpret world s.base s.contact s.statuses s.steps s.table stepLimit 0) inv
      (Stepped inv inv bad) := by
  refine h.interpret (horphaned exceeded) (fun step hstep => ?_) stepLimit 0
  rw [hsteps] at hstep
  obtain ⟨i, hi, rfl⟩ := List.mem_map.1 hstep
  exact h.instruction horphaned hlinked s.base s.contact s.statuses hi

/-- It holds wherever a run of the program comes to. -/
theorem Lasting.comes {s : Setup} (hsteps : s.steps = p.map Instruction.toJson)
    {begun : RunState σ} (hbegun : inv begun) {place : Nat} {r : RunState σ}
    (hcomes : Comes world s begun place r) : inv r := by
  have hreaches : ∀ there : Nat × RunState σ, Reaches world s (0, begun) there → inv there.2 := by
    intro there hthere
    induction hthere with
    | refl => exact hbegun
    | @tail here there _ hgoes hhere =>
      obtain ⟨step, id, hsome, -, hexecute, -⟩ := hgoes
      rw [hsteps] at hsome
      obtain ⟨i, hi, rfl⟩ := Program.exists_getElem?_of_map hsome
      have hstepped := h.instruction horphaned hlinked s.base s.contact s.statuses
        (List.mem_of_getElem? hi) (entering id here.2) (h.enter id here.2 hhere)
      rw [hexecute] at hstepped
      exact hstepped
  exact hreaches (place, r) hcomes

end Steps

/-- A run that has been set up is prepared, and has its first variables. -/
theorem setup_eq_ok {params : Fields} {s : Setup} {begun started : RunState σ}
    (h : outcome (setup params) begun = (.ok s, started)) :
    s.Prepares params ∧ Variables.initial (params.value "contact")
      ((params.value "variables").orElse (.list [])) (params.value "workflow") =
        .ok started.vars := by
  rw [Run.setup] at h
  obtain ⟨execution, hexecution, h⟩ := outcome_lift_bind_eq_ok_iff.1 h
  obtain ⟨org, horg, h⟩ := outcome_lift_bind_eq_ok_iff.1 h
  obtain ⟨contact, -, h⟩ := outcome_lift_bind_eq_ok_iff.1 h
  obtain ⟨vars, hvars, h⟩ := outcome_lift_bind_eq_ok_iff.1 h
  rw [outcome_bind, outcome_modify] at h
  obtain ⟨steps, hsteps, h⟩ := outcome_lift_bind_eq_ok_iff.1 h
  obtain ⟨table, htable, h⟩ := outcome_lift_bind_eq_ok_iff.1 h
  cases h
  refine ⟨⟨hsteps, htable, rfl, ?_⟩, hvars⟩
  rw [Base.given, ← Json.value_of_requiredField hexecution, ← Json.value_of_requiredField horg]

end Run

-- ============================================================================
-- Runs of definitions
-- ============================================================================

namespace Definition

open Run

/-- A run of a compiled program begins with variables of the contact, of the custom values and of
the workflow only, and keeps each of them, wherever it comes to and however it ends, if the program
spares it. -/
theorem seeded_kept {d : Definition} {p : Program} (h : d.compile = .ok p) {params : Fields}
    (hgiven : params.value "steps" = .list (p.map Instruction.toJson)) (world : World σ)
    {s : Setup} {begun started : RunState σ}
    (hsetup : outcome (Run.setup params) begun = (.ok s, started)) :
    Variables.initial (params.value "contact") ((params.value "variables").orElse (.list []))
        (params.value "workflow") = .ok started.vars ∧
      ∀ path value, started.vars.get? path = some value →
        ∃ space ∈ Variables.spaces, ∃ name, path = Variables.pathIn space name ∧
          (p.Spares space name →
            (∀ place r, Comes world s started place r → r.vars.get? path = some value) ∧
            (outcome (run world params) begun).2.vars.get? path = some value) := by
  obtain ⟨table, -, -, hlinked⟩ := exists_linked h
  -- The steps of the run are the instructions of the program, whose ids have no dot in them.
  have hids : ∀ i ∈ p, StepId.IsId i.id := by
    obtain ⟨steps, -, rfl⟩ := exists_plan_of_compile h
    exact fun i hi => Plan.isId_of_mem_program hi
  obtain ⟨hprepares, hvars⟩ := setup_eq_ok hsetup
  have hsteps : s.steps = p.map Instruction.toJson := by
    have hgot := hprepares.steps
    rw [hgiven, Json.givenItemsOf_list, Except.ok.injEq] at hgot
    exact hgot.symm
  refine ⟨hvars, fun path value hvalue => ?_⟩
  obtain ⟨space, hspace, name, rfl⟩ := Variables.inSpaces_of_initial hvars path value hvalue
  refine ⟨space, hspace, name, rfl, fun hspares => ?_⟩
  -- No instruction puts the variable again, so the steps keep what it is.
  have hlasting := lasting_unput world (hspares.not_puts hids) (some value)
  have hfails : ∀ (f : Failure) (r : RunState σ),
      r.vars.get? (Variables.pathIn space name) = some value →
        True ∧ r.vars.get? (Variables.pathIn space name) = some value := fun _ _ hr => ⟨trivial, hr⟩
  refine ⟨fun place r => hlasting.comes hfails hlinked hsteps hvalue, ?_⟩
  have hsteps := hlasting.steps hfails hlinked hsteps
  -- Neither does what the run does around its steps.
  have hended := hlasting.carriedOut (fun _ _ _ _ _ => trivial) hsteps started hvalue
  rw [outcome_run hsetup]
  rcases houtcome : outcome (carryOut world s) started with ⟨result, ended⟩
  rw [houtcome] at hended
  cases result with
  | ok _ => exact hended
  | error f => exact hended.2

/-- A definition that asks for a decision, with a custom value that has the name of its outcome. -/
def deciding (action : String) : Definition where
  id := "case"
  name := "Case"
  description := none
  trigger := ⟨.manual, none⟩
  contactRequired := false
  statuses := [⟨"open", "Open", .whole 1, none⟩]
  vars := [⟨"v", "Outcome", "text", ⟨[("type", .text "custom"), ("value", .text "pending")]⟩⟩]
  phases := []
  steps := [.standard ⟨"check", "Check", none⟩
    [⟨action, "create_task", ⟨[("taskType", .text "approval"),
      ("assignTo", .obj [("type", .text "role"), ("role", .text "agent")])]⟩⟩]
    ⟨"when_task_completed", ⟨[("taskActionId", .text action)]⟩⟩]

/-- The program of `deciding`. -/
def decided (action : String) : Program := [
  ⟨"trigger_start", "Trigger", none, .start ⟨.manual, none⟩ false⟩,
  ⟨action, "Check: Create Task", none, .work <| .createTask {
    title := ""
    links := []
    kind := .approval
    assignTo := ⟨[("type", .text "role"), ("role", .text "agent")]⟩
    priority := .text "medium"
    requireComment := false
    description := none
    dueDays := none }⟩,
  ⟨"check_wait_task", "Check: Wait for Task", none, .awaitTask action 7⟩,
  ⟨"workflow_end", "Workflow End", none, .mark⟩]

/-- What a run of it is given. -/
def decidingParams (action : String) : Fields :=
  (paramsOf (.texts ["open"]) ((decided action).map Instruction.toJson)).put "variables"
    (.list [Variables.declaration "v" "Outcome" "pending" [("type", .text "text")]])

/-- A run that has been told that its task is completed and approved. -/
def approvedBefore : RunState Unit :=
  { RunState.fresh () with
    inbox := (Inbox.empty.receiveAll [
      .completed "task" "ann", .decided "approved" (some "fine") "ann"]).1 }

theorem seeded_kept_deciding : (deciding "ask").compile = .ok (decided "ask") ∧
    (decided "ask").Spares "custom" "outcome" ∧
    (outcome (run silent (decidingParams "ask")) approvedBefore).2.vars.get? "custom.outcome" =
      some (.text "pending") := by
  have hcompile : (deciding "ask").compile = .ok (decided "ask") := by
    with_unfolding_all exact rfl
  have hspares : (decided "ask").Spares "custom" "outcome" := by
    intro _ i hi task hcreates
    simp only [decided, List.mem_cons, List.not_mem_nil, or_false] at hi
    rcases hi with rfl | rfl | rfl | rfl <;> simp
  obtain ⟨s, started, hsetup, hvalue⟩ : ∃ s started,
      outcome (Run.setup (decidingParams "ask")) approvedBefore = (.ok s, started) ∧
        started.vars.get? "custom.outcome" = some (.text "pending") :=
    ⟨_, _, rfl, rfl⟩
  -- The general statement says which space and which name the path has; they can be read off the
  -- path.
  obtain ⟨-, hkept⟩ := seeded_kept hcompile rfl silent hsetup
  obtain ⟨space, hspace, name, hpath, hruns⟩ := hkept _ _ hvalue
  obtain ⟨rfl, rfl⟩ := Variables.pathIn_inj (a := "custom") (x := "outcome") (by decide)
    (by decide) hpath
  exact ⟨hcompile, hspares, (hruns hspares).2⟩

/-- If the task is created by an action that is called "custom", its decision is put over the custom
value. -/
theorem not_all_seeded_kept :
    ¬ ∀ (d : Definition) (p : Program), d.compile = .ok p → ∀ params : Fields,
      params.value "steps" = .list (p.map Instruction.toJson) →
      ∀ (world : World Unit) (s : Setup) (begun started : RunState Unit),
        outcome (Run.setup params) begun = (.ok s, started) →
        ∀ path value, started.vars.get? path = some value →
          (outcome (run world params) begun).2.vars.get? path = some value := by
  intro h
  have hcompile : (deciding "custom").compile = .ok (decided "custom") := by
    with_unfolding_all exact rfl
  have hkept := h _ _ hcompile (decidingParams "custom") rfl silent _ approvedBefore _ rfl
    "custom.outcome" (.text "pending") rfl
  have hoverwritten : (outcome (run silent (decidingParams "custom")) approvedBefore).2.vars.get?
      "custom.outcome" = some (.text "approved") := by
    with_unfolding_all exact rfl
  rw [hoverwritten] at hkept
  exact absurd hkept (by simp)

end Definition
end Casework
