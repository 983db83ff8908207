/-
  Casework.Proofs.Run.Setup

  Which runs get as far as their first step. Before it, a run puts its first variables, and a
  failure there is not reported. The contact and the program that a trigger gives are always in
  order; what remains are the declared variables, which are kept as they were submitted.
-/
import Casework.Proofs.Execution.Start
import Casework.Proofs.Program.Variables
import Casework.Proofs.Run.Ending

namespace Casework

open Result

/-- A list is gone through item by item, whether it holds anything or not. -/
theorem Json.givenItemsOf_list (items : List Json) :
    (Json.list items).givenItemsOf = .ok items := by
  cases items <;> rfl

theorem Json.orElse_orElse (j alternative : Json) :
    (j.orElse alternative).orElse alternative = j.orElse alternative := by
  by_cases h : j.truthy
  · simp [Json.orElse, h]
  · simp [Json.orElse, h]

-- ============================================================================
-- Declarations
-- ============================================================================

namespace Variables

/-- Whether a run can take up a declaration: one with a text id and a text name has a source that is
an object, or none. -/
def isDeclarable (j : Json) : Bool := (declared? j).all fun d => d.source.object?.isSome

/-- Whether a run can go through declarations and take up each of them. -/
def areReadable (declarations : Json) : Bool :=
  match declarations.itemsOf with
  | .ok items => items.all isDeclarable
  | .error _ => false

/-- Whether a declaration is custom can be told if its source is an object. -/
theorem exists_isCustom_iff {d : Declared} :
    (∃ custom, d.isCustom = .ok custom) ↔ d.source.object?.isSome := by
  constructor
  · rintro ⟨custom, h⟩
    obtain ⟨⟨fields, hfields⟩, -⟩ := isCustom_eq_ok h
    rw [hfields]
    rfl
  · intro h
    obtain ⟨fields, hfields⟩ := Option.isSome_iff_exists.1 h
    cases hsource : d.source with
    | object fields => exact ⟨_, by rw [Declared.isCustom, hsource]; rfl⟩
    | _ => rw [hsource] at hfields; cases hfields

/-- The custom variables of a run are found exactly if the declarations can be read. -/
theorem exists_customOf_iff {declarations : Json} :
    (∃ custom, customOf declarations = .ok custom) ↔ areReadable declarations := by
  rw [customOf, areReadable]
  cases declarations.itemsOf with
  | error fault => simp
  | ok items =>
    rw [ok_bind, exists_filterM_iff, List.all_eq_true]
    simp only [List.mem_filterMap, exists_isCustom_iff]
    constructor
    · intro h j hj
      rw [isDeclarable, Option.all_eq_true]
      exact fun d hd => h d ⟨j, hj, hd⟩
    · rintro h d ⟨j, hj, hd⟩
      exact (Option.all_eq_true ..).1 (h j hj) d hd

/-- With a contact and a workflow that are in order, the first variables are found exactly if the
declarations can be read. -/
theorem exists_initial_iff {contact workflow declarations : Json} {operation : String}
    {contactFields workflowFields : Fields}
    (hcontact : contact.givenFields operation = .ok contactFields)
    (hworkflow : workflow.givenFields operation = .ok workflowFields) :
    (∃ vars, initial contact declarations workflow = .ok vars) ↔ areReadable declarations := by
  rw [← exists_customOf_iff, initial, Run.givenFields_eq_ok hcontact,
    Run.givenFields_eq_ok hworkflow, ok_bind]
  constructor
  · rintro ⟨vars, h⟩
    obtain ⟨custom, hcustom, -⟩ := bind_eq_ok_iff.1 h
    exact ⟨custom, hcustom⟩
  · rintro ⟨custom, hcustom⟩
    rw [hcustom]
    exact ⟨_, rfl⟩

end Variables

-- ============================================================================
-- Setting up
-- ============================================================================

namespace Run

variable {σ : Type}

/-- When the first variables cannot be found, setting up fails before anything is done. -/
theorem outcome_setup_of_initial_error {params : Fields} {execution org : Json}
    (hexecution : params.get? "workflow_execution_id" = some execution)
    (horg : params.get? "org_id" = some org) {contact : Fields}
    (hcontact : (params.value "contact").givenFields "get" = .ok contact) {fault : Fault}
    (hvars : Variables.initial (params.value "contact")
      ((params.value "variables").orElse (.list [])) (params.value "workflow") = .error fault)
    (s : RunState σ) : outcome (setup params) s = (.error (.fault fault), s) := by
  have hexecution : (Json.object params).requiredField "workflow_execution_id" = .ok execution := by
    rw [Json.requiredField, hexecution]
  have horg : (Json.object params).requiredField "org_id" = .ok org := by
    rw [Json.requiredField, horg]
  rw [setup, outcome_lift_bind hexecution, outcome_lift_bind horg, outcome_lift_bind hcontact,
    outcome_bind, outcome_lift, hvars]
  rfl

end Run

-- ============================================================================
-- What triggers give
-- ============================================================================

namespace Trigger

/-- The fields of what a run is given. -/
def given (r : Runnable) (e : Execution) (contact : Option Contact) : Fields :=
  ((params r e contact).object?).getD .empty

theorem params_eq (r : Runnable) (e : Execution) (contact : Option Contact) :
    params r e contact = .object (given r e contact) := rfl

section Given

variable (r : Runnable) (e : Execution) (contact : Option Contact)

/-- The contact that a run is given can be read, also if there is none. -/
theorem contact_given :
    ∃ fields, ((given r e contact).value "contact").givenFields "get" = .ok fields := by
  have hcontact : (given r e contact).value "contact" =
      .object ((contact.map Contact.told).getD .empty) := rfl
  rw [hcontact, Json.givenFields]
  split
  · exact ⟨_, rfl⟩
  · exact ⟨_, rfl⟩

/-- The steps that a run is given are the instructions of the program. -/
theorem steps_given : ((given r e contact).value "steps").givenItemsOf =
    .ok (r.program.map Instruction.toJson) := by
  have hsteps : (given r e contact).value "steps" = .list (r.program.map Instruction.toJson) := rfl
  rw [hsteps]
  exact Json.givenItemsOf_list _

/-- The variables that a run is given are the ones that are kept. -/
theorem vars_given : ((given r e contact).value "variables").orElse (.list []) =
    r.record.vars.orElse (.list []) := by
  have hvars : (given r e contact).value "variables" = r.record.vars.orElse (.list []) := rfl
  rw [hvars, Json.orElse_orElse]

/-- The first variables of a triggered run are found exactly if the kept declarations can be
read. -/
theorem exists_initial_given_iff :
    (∃ vars, Variables.initial ((given r e contact).value "contact")
        (((given r e contact).value "variables").orElse (.list []))
        ((given r e contact).value "workflow") = .ok vars) ↔
      Variables.areReadable (r.record.vars.orElse (.list [])) := by
  obtain ⟨fields, hcontact⟩ := contact_given r e contact
  rw [vars_given]
  exact Variables.exists_initial_iff hcontact rfl

/-- What a run is given for an execution can be run, if the variables of the definition can be
read. -/
theorem ready_given (h : Variables.areReadable (r.record.vars.orElse (.list []))) :
    Run.Ready (given r e contact) where
  execution := ⟨_, rfl⟩
  org := ⟨_, rfl⟩
  steps := by
    refine ⟨_, steps_given r e contact, fun step hstep => ?_⟩
    obtain ⟨i, -, rfl⟩ := List.mem_map.1 hstep
    exact ⟨_, i.requiredField_id⟩
  vars := (exists_initial_given_iff r e contact).2 h
  keys := by
    intro steps hsteps step hstep id hid
    rw [steps_given] at hsteps
    cases hsteps
    obtain ⟨i, -, rfl⟩ := List.mem_map.1 hstep
    rw [i.requiredField_id] at hid
    cases hid
    exact ⟨_, rfl⟩
  statuses := ⟨_, Json.givenItemsOf_list _⟩

end Given

-- ============================================================================
-- Triggered runs
-- ============================================================================

open Run in
/-- The run that a trigger starts is set up exactly if the declarations that are kept with its
definition can be read. If they can, it ends in one recorded state: as completed or timed out, or as
failed. If they cannot, it fails before its first step, as it was, and nothing is recorded. -/
theorem recorded_iff_readable {definition : String} {actor : AccessContext}
    {contact : Option String} {s : Session} {sent : Json} {workflow : String}
    (hsent : (Store.result (trigger definition actor contact) s).2.engine.sent =
      s.engine.sent ++ [.start sent workflow]) :
    ∃ (record : DefinitionRecord) (params : Fields), record ∈ s.working.definitions ∧
      Record.isOf definition actor.org record ∧ sent = .object params ∧
      ∀ {σ : Type} (world : World σ) (begun : RunState σ), begun.calls = [] →
        (Variables.areReadable (record.vars.orElse (.list [])) →
          (∃ setup, (outcome (Run.setup params) begun).1 = .ok setup) ∧
          ∃ result ended, outcome (run world params) begun = (result, ended) ∧
            match result with
            | .ok _ => Returned ended
            | .error _ => Raised ended) ∧
        (¬ Variables.areReadable (record.vars.orElse (.list [])) →
          ∃ fault, outcome (Run.setup params) begun = (.error (.fault fault), begun) ∧
            outcome (run world params) begun = (.error (.fault fault), begun)) := by
  obtain ⟨k, _, hfollows, rfl⟩ := exists_kept_of_sent hsent
  refine ⟨_, _, hfollows.record, hfollows.isOf, params_eq .., fun world begun hcalls => ⟨?_, ?_⟩⟩
  -- The variables can be read: the setup succeeds, and what comes behind it is recorded.
  · intro hreadable
    have hready := ready_given k.runnable k.execution k.contact hreadable
    obtain ⟨setup, vars, hstatuses, hsetup⟩ := outcome_setup hready begun
    obtain ⟨items, hitems⟩ := hready.statuses
    have hquiet : ({ begun with vars } : RunState _).Quiet := by
      intro call hcall
      rw [show ({ begun with vars } : RunState _).calls = begun.calls from rfl, hcalls] at hcall
      exact absurd hcall List.not_mem_nil
    obtain ⟨result, ended, hrun, -, hended⟩ :=
      recorded_of_setup world hsetup hquiet (hstatuses ▸ hitems)
    exact ⟨⟨setup, by rw [hsetup]⟩, result, ended, hrun, hended⟩
  -- They cannot: the setup fails before anything is called.
  · intro hunreadable
    obtain ⟨contactFields, hcontact⟩ := contact_given k.runnable k.execution k.contact
    cases hinitial : Variables.initial ((given k.runnable k.execution k.contact).value "contact")
        (((given k.runnable k.execution k.contact).value "variables").orElse (.list []))
        ((given k.runnable k.execution k.contact).value "workflow") with
    | ok vars =>
      exact absurd ((exists_initial_given_iff ..).1 ⟨vars, hinitial⟩) hunreadable
    | error fault =>
      have hsetup := outcome_setup_of_initial_error rfl rfl hcontact hinitial begun
      refine ⟨fault, hsetup, ?_⟩
      rw [run, outcome_bind, hsetup]

/-- A definition with one status, and one variable that has this source. -/
def submitted (source : Json) : Fields := ⟨[
  ("id", .text "case"), ("contactRequired", .bool false),
  ("statuses", .list [.obj [("id", .text "open"), ("label", .text "Open"), ("order", .int 1)]]),
  ("variables", .list [.obj [("id", .text "a"), ("name", .text "A"), ("source", source)]])]⟩

/-- A session in which a definition has been stored. -/
def storing (payload : Fields) : Session :=
  (Store.transact (Store.createDefinition (.text "org") payload)
    (Store.opened ⟨⟨2024, 5, 17⟩, 12, 0, 0, 0, none⟩)).2

/-- Who triggers it. -/
def ann : AccessContext := .build "ann" "org" none true []

open Run in
theorem recorded_empty_source :
    ∃ params workflow, (Store.result (trigger "case" ann none)
        (storing (submitted (.obj [])))).2.engine.sent =
          (storing (submitted (.obj []))).engine.sent ++ [.start (.object params) workflow] ∧
      ∃ result ended, outcome (run silent params) (.fresh ()) = (result, ended) ∧
        match result with
        | .ok _ => Returned ended
        | .error _ => Raised ended := by
  obtain ⟨params, workflow, hsent⟩ : ∃ params workflow, (Store.result (trigger "case" ann none)
      (storing (submitted (.obj [])))).2.engine.sent =
        (storing (submitted (.obj []))).engine.sent ++ [.start (.object params) workflow] := by
    refine ⟨?params, ?workflow, ?sent⟩
    -- The statuses are sorted, which is no structural recursion.
    case sent => with_unfolding_all exact rfl
  obtain ⟨record, params', hrecord, -, hparams, hrun⟩ := recorded_iff_readable hsent
  cases hparams
  have hstored : (storing (submitted (.obj []))).working.definitions.all
      (fun r => Variables.areReadable (r.vars.orElse (.list []))) := by decide
  have hreadable := List.all_eq_true.1 hstored record hrecord
  exact ⟨params, workflow, hsent, ((hrun silent (.fresh ()) rfl).1 hreadable).2⟩

/-- A definition that compiles, is stored and is triggered, but whose run cannot be set up: the
source of its variable is a text. -/
theorem not_all_runs_set_up :
    ¬ ∀ (payload params : Fields) (workflow : String),
      (Store.result (trigger "case" ann none) (storing payload)).2.engine.sent =
        [.start (.object params) workflow] →
      ∃ setup, (Run.outcome (Run.setup params) (RunState.fresh ())).1 = .ok setup := by
  intro h
  obtain ⟨params, workflow, hsent, hsetup⟩ : ∃ params workflow,
      (Store.result (trigger "case" ann none) (storing (submitted (.text "x")))).2.engine.sent =
        [.start (.object params) workflow] ∧
      (Run.outcome (Run.setup params) (RunState.fresh ())).1 =
        .error (.fault (.noOperation .text "get")) := by
    refine ⟨?params, ?workflow, ?sent, ?setup⟩
    case sent => with_unfolding_all exact rfl
    case setup => with_unfolding_all exact rfl
  obtain ⟨setup, hready⟩ := h _ params workflow hsent
  rw [hsetup] at hready
  cases hready

end Trigger
end Casework
