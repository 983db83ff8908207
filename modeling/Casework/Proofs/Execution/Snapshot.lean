/-
  Casework.Proofs.Execution.Snapshot

  One definition, one program. Storing a definition puts other documents for the absent parts of
  what was submitted; reading it puts parts of its own for documents of other forms. The two agree
  wherever a program can tell: what was submitted and what is kept are read as the same definition
  but for its name, id, description and phases. Definitions stay as they are kept. So an execution
  that is started of one later, at whatever time, keeps the program that was compiled before the
  definition was stored, and the engine is given the same.
-/
import Casework.Proofs.Definition.Reading
import Casework.Proofs.Execution.Attempt
import Casework.Proofs.Web.Deeds

namespace Casework

open Store Result

-- ============================================================================
-- Reading what is kept
-- ============================================================================

namespace Definition

/-- Two definitions are the same as far as programs can tell. -/
structure SameProgram (d d' : Definition) : Prop where
  trigger : d'.trigger = d.trigger
  contactRequired : d'.contactRequired = d.contactRequired
  statuses : d'.statuses = d.statuses
  vars : d'.vars = d.vars
  steps : d'.steps = d.steps

/-- Definitions that agree on all that programs are made from compile alike. -/
theorem SameProgram.compile_eq {d d' : Definition} (h : d.SameProgram d') :
    d'.compile = d.compile := by
  have hissues : d'.issues = d.issues := by
    rw [issues, issues, Validation.Scope.of, Validation.Scope.of, statusIds, statusIds, h.trigger,
      h.statuses, h.vars, h.steps]
  have hplan : Plan.ofDefinition d' = Plan.ofDefinition d := by
    rw [Plan.ofDefinition, Plan.ofDefinition, h.trigger, h.contactRequired, h.vars, h.steps]
  rw [compile, compile, hissues, hplan]

end Definition

/-- A document has the parts of a submitted one, and where these are absent, what stands for
them. -/
structure DefinitionDraft.Completes (payload kept : Fields) : Prop where
  trigger : kept.value "trigger" =
    (payload.value "trigger").orElse DefinitionRecord.manualTrigger
  contactRequired : kept.value "contactRequired" = .bool (ofPayload payload).contactRequired
  statuses : kept.value "statuses" = (payload.value "statuses").orElse (.list [])
  vars : kept.value "variables" = (payload.value "variables").orElse (.list [])
  steps : kept.get? "steps" = some ((payload.value "steps").orElse (.list []))

section Absent

variable {j : Json} (h : j.truthy = false)

include h

/-- What is no object is read as a manual trigger, and so is what stands for an absent one. -/
theorem Trigger.ofJson_of_not_truthy : ofJson j = ofJson DefinitionRecord.manualTrigger := by
  have hmanual : ofJson DefinitionRecord.manualTrigger = manual := by decide
  rw [hmanual]
  cases j with
  | object fields =>
    obtain ⟨fields⟩ := fields
    cases fields with
    | nil => rfl
    | cons field rest => cases h
  | _ => rfl

theorem Json.list_nil_of_not_truthy {items : List Json} (hj : j = .list items) : items = [] := by
  subst hj
  cases items with
  | nil => rfl
  | cons item rest => cases h

/-- Where no statuses are given, none are read. -/
theorem Status.listOfJson_of_not_truthy : listOfJson j = listOfJson (.list []) := by
  cases j with
  | list items => rw [Json.list_nil_of_not_truthy h rfl]
  | _ => simp [listOfJson, sortByOrder]

/-- Where no variables are given, none are read. -/
theorem Variable.listOfJson_of_not_truthy : listOfJson j = listOfJson (.list []) := by
  cases j with
  | list items => rw [Json.list_nil_of_not_truthy h rfl]
  | _ => rfl

/-- Steps that do not count as given are read only if there are none. -/
theorem Step.readSteps_of_not_truthy {place : Place} {name : String}
    (hissues : (readSteps place name j).2 = []) :
    readSteps place name j = readSteps place name (.list []) := by
  cases j with
  | list items => rw [Json.list_nil_of_not_truthy h rfl]
  | _ => simp [readSteps] at hissues

end Absent

/-- A value stands for itself, or, if it counts as absent, the alternative does. -/
theorem Json.orElse_cases (j alternative : Json) :
    j.orElse alternative = j ∨ j.truthy = false ∧ j.orElse alternative = alternative := by
  rw [Json.orElse]
  cases j.truthy
  · exact .inr ⟨rfl, rfl⟩
  · exact .inl rfl

namespace Definition

variable {payload kept : Fields} (h : DefinitionDraft.Completes payload kept)

include h

/-- What is kept has the steps of the payload, if these can be read: absent steps are kept as an
empty list, which is how they are read. -/
theorem findSteps_of_completes (hissues : (Step.findSteps .top payload.toList).2 = []) :
    Step.findSteps .top kept.toList = Step.findSteps .top payload.toList := by
  have hkept : Step.findSteps .top kept.toList =
      Step.readSteps .top "steps" ((payload.value "steps").orElse (.list [])) := by
    rw [Step.findSteps_eq, Entries.steps, show Entries.get? ⟨kept.toList⟩ "steps" = _ from h.steps]
    rfl
  have hpayload := Step.findSteps_eq .top payload.toList
  rw [Entries.steps, show Entries.get? ⟨payload.toList⟩ "steps" =
    payload.get? "steps" from rfl] at hpayload
  rw [Entries.value] at hkept
  -- Without steps in the payload both are empty lists.
  cases hget : payload.get? "steps" with
  | none =>
    rw [hget] at hkept hpayload
    rw [hkept, hpayload]
    rfl
  -- Steps that are there are kept, unless they count as absent.
  | some value =>
    rw [hget, Option.getD_some] at hkept hpayload
    rw [hkept, hpayload]
    rw [hpayload] at hissues
    rcases value.orElse_cases (.list []) with hsame | ⟨habsent, hother⟩
    · rw [hsame]
    · rw [hother]
      exact (Step.readSteps_of_not_truthy habsent hissues).symm

/-- What is kept is read as the same definition as what was submitted. -/
theorem exists_ofJson_of_completes {d : Definition} (hread : ofJson (.object payload) = .ok d) :
    ∃ d', ofJson (.object kept) = .ok d' ∧ d.SameProgram d' := by
  obtain ⟨hissues, rfl⟩ := ofJson_eq_ok_iff.1 hread
  have hsteps := findSteps_of_completes h hissues
  refine ⟨_, ofJson_eq_ok_iff.2 ⟨by rw [hsteps, hissues], rfl⟩, ?_⟩
  -- Part by part: what the payload leaves out is kept with a default that is read as nothing is.
  constructor
  case trigger =>
    show Trigger.ofJson (kept.value "trigger") = Trigger.ofJson (payload.value "trigger")
    rw [h.trigger]
    rcases (payload.value "trigger").orElse_cases DefinitionRecord.manualTrigger with
      hsame | ⟨habsent, hother⟩
    · rw [hsame]
    · rw [hother, Trigger.ofJson_of_not_truthy habsent]
  case contactRequired =>
    have hvalue : payload.value "contactRequired" =
      (payload.get? "contactRequired").getD .null := rfl
    simp only [ofFields, h.contactRequired, DefinitionDraft.ofPayload, hvalue]
    cases payload.get? "contactRequired" with
    | none => rfl
    | some value =>
      cases value with
      | bool b => cases b <;> rfl
      | _ => rfl
  case statuses =>
    show Status.listOfJson (kept.value "statuses") = Status.listOfJson (payload.value "statuses")
    rw [h.statuses]
    rcases (payload.value "statuses").orElse_cases (.list []) with hsame | ⟨habsent, hother⟩
    · rw [hsame]
    · rw [hother, Status.listOfJson_of_not_truthy habsent]
  case vars =>
    show Variable.listOfJson (kept.value "variables") =
      Variable.listOfJson (payload.value "variables")
    rw [h.vars]
    rcases (payload.value "variables").orElse_cases (.list []) with hsame | ⟨habsent, hother⟩
    · rw [hsame]
    · rw [hother, Variable.listOfJson_of_not_truthy habsent]
  case steps => exact congrArg Prod.fst hsteps

/-- What compiles when it is submitted compiles to the same program when it is kept. -/
theorem compile_of_completes {p : Program}
    (hcompiles : Casework.compile (.object payload) = .ok p) :
    ∃ d, ofJson (.object kept) = .ok d ∧ d.compile = .ok p := by
  rw [Casework.compile] at hcompiles
  cases hread : ofJson (.object payload) with
  | error error =>
    rw [hread] at hcompiles
    cases hcompiles
  | ok d =>
    rw [hread] at hcompiles
    obtain ⟨d', hread', hsame⟩ := exists_ofJson_of_completes h hread
    exact ⟨d', hread', hsame.compile_eq.trans hcompiles⟩

end Definition

-- ============================================================================
-- Storing
-- ============================================================================

namespace DefinitionDraft

/-- The record of a draft has the parts of the draft. -/
theorem parts_of_record {d : DefinitionDraft} {id org : Json} {moment : Moment}
    {r : DefinitionRecord}
    (h : d.record id org moment = .ok r) :
    r.trigger = d.trigger ∧ r.contactRequired = d.contactRequired ∧ r.statuses = d.statuses ∧
      r.vars = d.vars ∧ r.steps = d.steps := by
  iterate 7 obtain ⟨_, -, h⟩ := bind_eq_ok_iff.1 h
  cases h
  exact ⟨rfl, rfl, rfl, rfl, rfl⟩

/-- The editor's forms of a stored definition, as it is kept and as it is shown when it is stored,
are what was submitted, completed. -/
theorem completes_of_record {payload : Fields} {d : DefinitionDraft} {id : Json}
    {r : DefinitionRecord}
    (hdraft : d = { ofPayload payload with id }) {org : Json} {moment : Moment}
    (h : d.record id org moment = .ok r) :
    (∃ kept, r.authored = .object kept ∧ Completes payload kept) ∧
      ∃ kept, d.authored r = .object kept ∧ Completes payload kept := by
  obtain ⟨htrigger, hcontact, hstatuses, hvars, hsteps⟩ := parts_of_record h
  subst hdraft
  -- The row and the answer have the same five parts, and differ in all others.
  have hcompletes : ∀ kept : Fields,
      kept.value "trigger" = r.trigger.orElse DefinitionRecord.manualTrigger →
      kept.value "contactRequired" = .bool r.contactRequired →
      kept.value "statuses" = r.statuses.orElse (.list []) →
      kept.value "variables" = r.vars.orElse (.list []) →
      kept.get? "steps" = some (r.steps.orElse (.list [])) → Completes payload kept := by
    intro kept htrigger' hcontact' hstatuses' hvars' hsteps'
    constructor
    case trigger => rw [htrigger', htrigger, ofPayload, Json.orElse_orElse]
    case contactRequired => rw [hcontact', hcontact]
    case statuses => rw [hstatuses', hstatuses, ofPayload, Json.orElse_orElse]
    case vars => rw [hvars', hvars, ofPayload, Json.orElse_orElse]
    case steps => rw [hsteps', hsteps, ofPayload, Json.orElse_orElse]
  exact ⟨⟨_, rfl, hcompletes _ rfl rfl rfl rfl rfl⟩, ⟨_, rfl, hcompletes _ rfl rfl rfl rfl rfl⟩⟩

end DefinitionDraft

namespace Store

/-- A stored definition comes behind those that are there, and none of them has its id. -/
theorem stored_of_result {org : String} {payload : Fields} {s s' : Session} {d : DefinitionDraft}
    {r : DefinitionRecord}
    (h : result (createDefinition (.text org) payload) s = (.ok (d, r), s')) :
    (∃ id moment, d = { DefinitionDraft.ofPayload payload with id } ∧
        d.record id (.text org) moment = .ok r) ∧
      s'.working.definitions.find? (Record.isOf r.id org) = some r := by
  obtain ⟨id, moment, record, -, hrecord, hkept, hnew, hworking⟩ := added_of_result h
  cases hkept
  have hfound := (Record.Only.append (Record.ne_of_any_clash (fun _ _ => beq_iff_eq.2) hnew)).find?
  rw [show Record.org r = org from (keys_of_definition hrecord).2] at hfound
  exact ⟨⟨id, moment, rfl, hrecord⟩,
    (congrArg (Records.definitions · |>.find? _) hworking).trans hfound⟩

end Store

-- ============================================================================
-- Starting
-- ============================================================================

namespace Trigger

variable {definition : String} {actor : AccessContext} {contact : Option String}

/-- A definition that is stored, can be read and compiles is prepared. -/
theorem result_prepare {s : Session} {r : DefinitionRecord} {d : Definition} {p : Program}
    (hfound : s.working.definitions.find? (Record.isOf definition actor.org) = some r)
    (hread : Definition.ofJson r.authored = .ok d) (hcompiles : d.compile = .ok p) :
    result (prepare definition actor.org) s = (.ok ⟨r, d, p⟩, s) := by
  have hfind : result (definition? definition actor.org) s = (.ok (some r), s) := by
    rw [← hfound]
    rfl
  rw [prepare, result_bind, hfind]
  dsimp only
  rw [hread, result_bind, show result (Store.lift (read (.ok d))) s = (.ok d, s) from rfl]
  dsimp only
  rw [hcompiles]
  rfl

/-- What is kept for a run is what was prepared for it. -/
theorem runnable_of_keep {s s' : Session} {k : Kept}
    (h : result (keep definition actor contact) s = (.ok k, s')) :
    result (prepare definition actor.org) s = (.ok k.runnable, s) := by
  obtain ⟨_, entered, henter, hrest⟩ := result_bind_eq_ok_iff.1 h
  obtain ⟨_, _, -, hrest⟩ := result_bind_eq_ok_iff.1 hrest
  obtain ⟨_, _, -, hdone⟩ := result_bind_eq_ok_iff.1 hrest
  cases hdone
  obtain ⟨r, prepared, hprepare, hrest⟩ := result_bind_eq_ok_iff.1 henter
  obtain ⟨_, _, -, hrest⟩ := result_bind_eq_ok_iff.1 hrest
  obtain ⟨_, _, -, hdone⟩ := result_bind_eq_ok_iff.1 hrest
  cases hdone
  obtain ⟨rfl, -⟩ := prepared_of_result hprepare
  exact hprepare

/-- What is kept is what the attempt was prepared with. -/
theorem runnable_eq_of_keep {s s' s'' : Session} {k : Kept} {r : Runnable}
    (hprepare : result (prepare definition actor.org) s = (.ok r, s''))
    (h : result (keep definition actor contact) s = (.ok k, s')) : k.runnable = r := by
  rw [runnable_of_keep h] at hprepare
  exact Except.ok.inj (Prod.mk.inj hprepare).1

/-- The one new execution of an attempt keeps the program that the attempt was prepared with. -/
theorem steps_of_adds {a : Attempt} {s : Session} {e : Execution} {r : Runnable}
    (hprepare : result (prepare a.definition a.actor.org) (a.session s) = (.ok r, a.session s))
    (h : Adds s (a.make s).2 e) : e.steps = r.program.toJson := by
  rcases make_cases a s with ⟨f, -, -, hcommitted, -⟩ | ⟨k, kept, hkeep, hfollows, houtcome⟩
  -- A failed attempt adds nothing.
  · have hsame : s.committed.executions = s.committed.executions ++ [e] := by
      rw [← h.executions, hcommitted]
    simp at hsame
  · have hsteps : k.execution.steps = r.program.toJson := by
      rw [← runnable_eq_of_keep hprepare hkeep]
      exact (begun_of_keep hkeep).steps
    -- There is one new row at most.
    have hlast : ∀ e' : Execution, (a.make s).2.committed.executions =
        s.committed.executions ++ [e'] → e = e' := fun e' hadded => by
      simpa using h.executions.symm.trans hadded
    rcases houtcome with ⟨error, -, -, hadded, -⟩ | ⟨shown, -, -, hadded, -⟩
    · rw [hlast _ hadded]
      exact hsteps
    · rw [hlast _ hadded]
      exact hsteps

/-- One definition, one program. If what is submitted compiles and is stored, what is kept compiles
to the same program, both as it is shown and as it is read from the store at any later time. An
attempt to start an execution of it, whenever it is made, keeps this program with the execution, and
gives it to the engine. -/
theorem one_program {payload : Fields} {p : Program} (hcompiles : compile (.object payload) = .ok p)
    {org : String} {s stored : Session} {d : DefinitionDraft} {r : DefinitionRecord}
    (hstored : transact (createDefinition (.text org) payload) s = (.ok (d, r), stored))
    (deeds : List Deed) :
    compile (d.authored r) = .ok p ∧ compile r.authored = .ok p ∧
      (Deed.performAll stored deeds).committed.definitions.find? (Record.isOf r.id org) = some r ∧
      ∀ a : Attempt, a.definition = r.id → a.actor.org = org →
        let before := Deed.performAll stored deeds
        match a.make before with
        | (.ok shown, after) => ∃ e, shown.id = e.id ∧ Started before after e ∧ e.steps = p.toJson
        | (.error _, after) => ∀ e, Adds before after e → e.steps = p.toJson := by
  rw [transact_eq] at hstored
  rcases hresult : result (createDefinition (.text org) payload) s with ⟨kept | f, s'⟩ <;>
    rw [hresult] at hstored <;> cases hstored
  -- Twice the payload is completed: in the row that is kept, and in the answer that shows it.
  obtain ⟨⟨id, moment, hdraft, hrecord⟩, hfound⟩ := stored_of_result hresult
  obtain ⟨⟨kept, hauthored, hkept⟩, shown, hshown, hcompletes⟩ :=
    DefinitionDraft.completes_of_record hdraft hrecord
  obtain ⟨definition, hread, hprogram⟩ := Definition.compile_of_completes hkept hcompiles
  obtain ⟨definition', hread', hprogram'⟩ := Definition.compile_of_completes hcompletes hcompiles
  -- No later deed touches the definition.
  have hafter : (writing fun _ => True).From s'.working
      (Deed.performAll { s' with committed := s'.working } deeds) :=
    Deed.writes_performAll (fun _ _ _ _ => trivial) ⟨.refl, .refl⟩
  have hlater := definition_of_writing hafter.committed hfound
  refine ⟨?_, ?_, hlater, ?_⟩
  · rw [hshown, compile, hread']
    exact hprogram'
  · rw [hauthored, compile, hread]
    exact hprogram
  -- An attempt prepares the stored row, which has that program.
  · intro a ha horg before
    have hprepare : result (prepare a.definition a.actor.org) (a.session before) =
        (.ok ⟨r, definition, p⟩, a.session before) := by
      refine result_prepare ?_ (hauthored ▸ hread) hprogram
      rw [ha, horg]
      exact hlater
    have hleaves := leaves_make a before
    have hsteps : ∀ e, Adds before (a.make before).2 e → e.steps = p.toJson :=
      fun e he => steps_of_adds hprepare he
    rcases hmake : a.make before with ⟨_ | shown, after⟩ <;> rw [hmake] at hleaves hsteps
    case error => exact hsteps
    case ok =>
      obtain ⟨e, hid, -, hstarted⟩ := hleaves
      exact ⟨e, hid, hstarted, hsteps e hstarted.toAdds⟩

/-- A definition that leaves to the reader what its trigger, its variables and its phases are. -/
def sparse : Fields := ⟨[
  ("id", .text "case"), ("trigger", .int 0), ("contactRequired", .bool false), ("variables", .null),
  ("phases", .text "none"),
  ("statuses", .list [.obj [("id", .text "open"), ("label", .text "Open"), ("order", .int 1)]]),
  ("steps", .list [.obj [
    ("id", .text "s1"), ("name", .text "First"),
    ("actions", .list [.obj [("id", .text "set"), ("type", .text "update_status"),
      ("config", .obj [("status", .text "open")])]]),
    ("advancementCondition", .obj [("type", .text "automatic")])]])]⟩

theorem one_program_sparse :
    ∃ p d r stored after e, compile (.object sparse) = .ok p ∧
      p.map Instruction.id = ["trigger_start", "set", "workflow_end"] ∧
      transact (createDefinition (.text "org") sparse) Web.Service.nothingKept =
        (.ok (d, r), stored) ∧
      compile (d.authored r) = .ok p ∧ compile r.authored = .ok p ∧
      Started (Deed.performAll stored Deed.intrusion) after e ∧ e.steps = p.toJson := by
  obtain ⟨p, hcompiles, hids⟩ : ∃ p, compile (.object sparse) = .ok p ∧
      p.map Instruction.id = ["trigger_start", "set", "workflow_end"] := by
    -- The definition compiles, and an attempt after other deeds succeeds: both are evaluated.
    refine ⟨?p, ?compiles, ?ids⟩
    case compiles => with_unfolding_all exact rfl
    case ids => with_unfolding_all exact rfl
  obtain ⟨d, r, stored, hstored, hid, htaken⟩ : ∃ d r stored,
      transact (createDefinition (.text "org") sparse) Web.Service.nothingKept =
        (.ok (d, r), stored) ∧ r.id = "case" ∧
        ((attemptWith {}).make (Deed.performAll stored Deed.intrusion)).1.isOk := by
    refine ⟨?d, ?r, ?stored, ?kept, ?id, ?taken⟩
    case kept => with_unfolding_all exact rfl
    case id => with_unfolding_all exact rfl
    case taken => with_unfolding_all exact rfl
  obtain ⟨hshown, hkept, -, hattempts⟩ := one_program hcompiles hstored Deed.intrusion
  have hmade := hattempts (attemptWith {}) hid.symm rfl
  dsimp only at hmade
  rcases hmake : (attemptWith {}).make (Deed.performAll stored Deed.intrusion)
    with ⟨_ | shown, after⟩ <;>
    rw [hmake] at htaken hmade
  case error => cases htaken
  case ok =>
    obtain ⟨e, -, hstarted, hsteps⟩ := hmade
    exact ⟨p, d, r, stored, after, e, hcompiles, hids, hstored, hshown, hkept, hstarted, hsteps⟩

end Trigger
end Casework
