/-
  Casework.Proofs.Program.Planning

  A definition without issues has a plan. Every part that planning looks up or reads was checked
  before: texts are texts, a task has somebody to do it, a wait names a task of its step, and a
  branch has as many tracks as its values need, each with a step.
-/
import Casework.Program.Lowering
import Casework.Proofs.Result

namespace Casework

open Result

-- ============================================================================
-- What the absence of an issue says
-- ============================================================================

namespace Validation

theorem ite_nil_iff {c : Prop} [Decidable c] {issue : Issue} :
    (if c then [] else [issue]) = [] ↔ c := by
  split <;> simp_all

/-- Texts that raise no issue are texts, or absent. -/
theorem textIssues_eq_nil {s : Subject} {place : Place} {fields : Fields} {names : List String}
    (h : textIssues s place fields names = []) :
    ∀ name ∈ names, (fields.value name).isNull ∨ (fields.value name).isText := by
  intro name hname
  have hnone := List.filterMap_eq_nil_iff.1 h name hname
  by_contra hnot
  simp [not_or.1 hnot] at hnone

/-- A list that raises no issue is a list of texts, or absent. -/
theorem listIssues_eq_nil {s : Subject} {place : Place} {value : Json} {label : String}
    (h : listIssues s place value label = []) : value.isNull ∨ value.texts?.isSome := by
  simpa using ite_nil_iff.1 h

end Validation

/-- A list of which every item is read as a text holds these texts. -/
theorem Json.eq_map_text_of_mapM {items : List Json} {texts : List String}
    (h : items.mapM Json.text? = some texts) : items = texts.map .text := by
  induction items generalizing texts with
  | nil =>
    cases h
    rfl
  | cons item rest ih =>
    simp only [List.mapM_cons, Option.bind_eq_bind, Option.bind_eq_some_iff, Option.pure_def,
      Option.some.injEq] at h
    obtain ⟨first, hfirst, more, hmore, rfl⟩ := h
    cases item <;> cases hfirst
    rw [List.map_cons, ih hmore]

namespace Audience

/-- The audience that recipients are written down for, when every text is put through a function;
none if they are of no known kind. -/
def written (f : String → String) (recipients : Fields) : Option Audience :=
  match recipients.value "type" with
  | .text "organization" => some .organization
  | .text "user" => some (.user (f ((recipients.value "userId").text?.getD "")))
  | .text "role" => some (.role (f ((recipients.value "role").text?.getD "")))
  | .text "group" => some (.groups (((recipients.value "groupIds").texts?.getD []).map f))
  | _ => none

end Audience

namespace Plan

open Validation

variable (keys : Entries String) {config recipients : Fields}

-- ============================================================================
-- Texts
-- ============================================================================

/-- A text, or nothing, is planned as the text with its tokens written for the run. -/
theorem textOf_eq {j : Json} (h : j.isNull ∨ j.isText) :
    textOf keys j = .ok (Template.resolved keys (j.text?.getD "")) := by
  cases j with
  | null => rfl
  | text s =>
    rw [textOf]
    split
    case isFalse => rfl
    case isTrue hempty =>
      have hs : s = "" := by simpa [Json.truthy] using hempty
      rw [hs]
      rfl
  | _ => simp [Json.isNull, Json.isText, Json.text?] at h

theorem exists_textOf_eq_ok {j : Json} (h : j.isNull ∨ j.isText) : ∃ s, textOf keys j = .ok s :=
  ⟨_, textOf_eq keys h⟩

theorem exists_givenText_eq_ok {j : Json} (h : j.isNull ∨ j.isText) :
    ∃ s, givenText keys j = .ok s := by
  obtain ⟨s, hs⟩ := exists_textOf_eq_ok keys h
  rw [givenText]
  split
  · exact ⟨some s, by rw [hs]; rfl⟩
  · exact ⟨none, rfl⟩

/-- A list of texts, or null, can be gone through. -/
theorem givenItemsOf_eq {j : Json} (h : j.isNull ∨ j.texts?.isSome) :
    j.givenItemsOf = .ok ((j.texts?.getD []).map .text) := by
  cases j with
  | null => rfl
  | list items =>
    obtain ⟨texts, htexts⟩ := Option.isSome_iff_exists.1 (h.resolve_left (by simp [Json.isNull]))
    rw [htexts, Option.getD_some, ← Json.eq_map_text_of_mapM htexts]
    cases items <;> rfl
  | _ => simp [Json.isNull, Json.texts?] at h

/-- Links that are texts, or absent, can be planned. -/
theorem exists_linksOf_eq_ok {j : Json} (h : j.isNull ∨ j.texts?.isSome) :
    ∃ links, linksOf keys j = .ok links := by
  exact ⟨_, by rw [linksOf, givenItemsOf_eq h]; rfl⟩

-- ============================================================================
-- Work
-- ============================================================================

/-- A field with a value is there when it is required. -/
theorem requiredField_of_value {name : String} {j : Json} (h : config.value name = j)
    (hnull : j ≠ .null) : (Json.object config).requiredField name = .ok j := by
  rw [Entries.value] at h
  rw [Json.requiredField]
  cases hget : config.get? name with
  | none => rw [hget] at h; exact absurd h.symm hnull
  | some value => rw [hget] at h; simpa using h

/-- The kind of a task that is one of the known ones, or absent, can be planned. -/
theorem exists_taskKindOf_eq_ok
    (h : ((config.get? "taskType").getD (.text "standard")).isOneOf taskKinds) :
    ∃ kind, taskKindOf (config.value "taskType") = .ok kind := by
  cases hget : config.get? "taskType" with
  | none => exact ⟨.standard, by rw [Entries.value, hget]; rfl⟩
  | some j =>
    rw [hget] at h
    cases j with
    | text s =>
      have hs : s = "standard" ∨ s = "approval" := by
        simpa [Json.isOneOf, Json.text?, taskKinds] using h
      rcases hs with rfl | rfl <;> exact ⟨_, by rw [Entries.value, hget]; rfl⟩
    | _ => simp [Json.isOneOf, Json.text?] at h

/-- Days that are counted, or absent, can be planned. -/
theorem exists_daysOf_eq_ok {j : Json} (h : j.isNull ∨ j.count?.isSome) :
    ∃ days, daysOf j = .ok days := by
  rcases h with h | h
  · cases j <;> first | exact ⟨none, rfl⟩ | simp [Json.isNull] at h
  · obtain ⟨n, hn⟩ := Option.isSome_iff_exists.1 h
    cases j <;> first | exact ⟨some n, by rw [daysOf, hn]; simp⟩ | simp [Json.count?] at hn

/-- A task that raises no issue can be planned. -/
theorem exists_taskOf_eq_ok {s : Subject} (h : taskIssues s config = []) :
    ∃ task, taskOf keys config = .ok task := by
  simp only [taskIssues, List.append_eq_nil_iff, ite_nil_iff] at h
  obtain ⟨⟨⟨⟨hassignee, hkind⟩, hdue⟩, htexts⟩, hlinks⟩ := h
  have htexts := textIssues_eq_nil htexts
  -- Each part can be planned by itself.
  obtain ⟨title, htitle⟩ := exists_textOf_eq_ok keys (htexts "title" (by simp))
  obtain ⟨links, hlinks⟩ := exists_linksOf_eq_ok keys (listIssues_eq_nil hlinks)
  obtain ⟨kind, hkind⟩ := exists_taskKindOf_eq_ok hkind
  obtain ⟨description, hdescription⟩ :=
    exists_givenText_eq_ok keys (htexts "description" (by simp))
  obtain ⟨days, hdays⟩ := exists_daysOf_eq_ok (by simpa using hdue)
  cases hvalue : config.value "assignTo" with
  | object fields =>
    have hfield := requiredField_of_value hvalue (by simp)
    rw [taskOf, htitle, hlinks, hkind, hfield, hdescription, hdays]
    exact ⟨_, rfl⟩
  | _ => rw [hvalue] at hassignee; simp [isAssignee] at hassignee

/-- A mail whose texts raise no issue can be planned. -/
theorem exists_mailOf_eq_ok {s : Subject} (h : textIssues s s.place config mailFields = []) :
    ∃ mail, mailOf keys config = .ok mail := by
  have htexts := textIssues_eq_nil h
  obtain ⟨recipient, hrecipient⟩ := exists_textOf_eq_ok keys (htexts "to" (by simp [mailFields]))
  obtain ⟨subject, hsubject⟩ := exists_textOf_eq_ok keys (htexts "subject" (by simp [mailFields]))
  obtain ⟨body, hbody⟩ := exists_textOf_eq_ok keys (htexts "body" (by simp [mailFields]))
  obtain ⟨sender, hsender⟩ := exists_givenText_eq_ok keys (htexts "from" (by simp [mailFields]))
  rw [mailOf, hrecipient, hsubject, hbody, hsender]
  exact ⟨_, rfl⟩

/-- Recipients of a known kind are planned as they are written down. -/
theorem audienceOf_eq (hkind : (recipients.value "type").isOneOf recipientKinds)
    (htexts : ∀ name ∈ ["userId", "role"],
      (recipients.value name).isNull ∨ (recipients.value name).isText)
    (hgroups : (recipients.value "groupIds").isNull ∨ (recipients.value "groupIds").texts?.isSome) :
    ∃ audience, Audience.written (Template.resolved keys) recipients = some audience ∧
      audienceOf keys (.object recipients) = .ok audience := by
  -- The kind is a text, and one of the four that are known.
  obtain ⟨kind, hvalue⟩ : ∃ kind, recipients.value "type" = .text kind := by
    cases h : recipients.value "type" with
    | text kind => exact ⟨kind, rfl⟩
    | _ => rw [h] at hkind; simp [Json.isOneOf, Json.text?] at hkind
  have hknown : kind = "organization" ∨ kind = "user" ∨ kind = "role" ∨ kind = "group" := by
    rw [hvalue] at hkind
    simpa [Json.isOneOf, Json.text?, recipientKinds] using hkind
  rw [audienceOf, requiredField_of_value hvalue (by simp), ok_bind, Audience.written, hvalue]
  rcases hknown with rfl | rfl | rfl | rfl
  case inl => exact ⟨_, rfl, rfl⟩
  case inr.inl =>
    refine ⟨_, rfl, ?_⟩
    show Audience.user <$> textOf keys (recipients.value "userId") = _
    rw [textOf_eq keys (htexts "userId" (by simp))]
    rfl
  case inr.inr.inl =>
    refine ⟨_, rfl, ?_⟩
    show Audience.role <$> textOf keys (recipients.value "role") = _
    rw [textOf_eq keys (htexts "role" (by simp))]
    rfl
  case inr.inr.inr =>
    refine ⟨_, rfl, ?_⟩
    show (recipients.value "groupIds").givenItemsOf >>= _ = _
    rw [givenItemsOf_eq hgroups, ok_bind, List.mapM_map]
    exact congrArg (Audience.groups <$> ·) (mapM_eq_ok_map fun name _ => rfl)

/-- A notification without issues is for whom its recipients are written down. -/
theorem noticeOf_eq {s : Subject} (h : notificationIssues s config = []) :
    ∃ recipients audience, config.value "recipients" = .object recipients ∧
      Audience.written (Template.resolved keys) recipients = some audience ∧
      noticeOf keys config = .ok {
        audience
        title := Template.resolved keys ((config.value "title").text?.getD "")
        message := Template.resolved keys ((config.value "message").text?.getD "") } := by
  -- Recipients of a known kind are asked for; for these the audience can be written down.
  rw [notificationIssues, List.append_eq_nil_iff] at h
  obtain ⟨hrecipients, htexts⟩ := h
  have htexts := textIssues_eq_nil htexts
  rw [recipients?] at hrecipients
  cases hvalue : config.value "recipients" with
  | object recipients =>
    simp only [hvalue] at hrecipients
    by_cases hkind : (recipients.value "type").isOneOf recipientKinds
    · simp only [if_pos hkind, List.append_eq_nil_iff] at hrecipients
      obtain ⟨audience, hwritten, haudience⟩ := audienceOf_eq keys hkind
        (textIssues_eq_nil hrecipients.1) (listIssues_eq_nil hrecipients.2)
      refine ⟨recipients, audience, rfl, hwritten, ?_⟩
      rw [noticeOf, requiredField_of_value hvalue (by simp), ok_bind, haudience, ok_bind,
        textOf_eq keys (htexts "title" (by simp)), ok_bind,
        textOf_eq keys (htexts "message" (by simp))]
      rfl
    · simp [if_neg hkind] at hrecipients
  | _ => simp [hvalue] at hrecipients

/-- A status change that raises no issue can be planned. -/
theorem exists_statusOf_eq_ok {scope : Scope} {s : Subject} (hdeclared : scope.statusIds ≠ [])
    (h : statusChangeIssues scope s config = []) : ∃ status, statusOf config = .ok status := by
  rw [statusChangeIssues] at h
  cases hvalue : config.value "status" with
  | text status =>
    exact ⟨status, by rw [statusOf, requiredField_of_value hvalue (by simp)]; rfl⟩
  | _ => simp [hvalue, hdeclared, Json.isNull, Json.isText, Json.text?, Json.isOneOf] at h

/-- An action without issues asks for work. -/
theorem exists_actionOf_eq_ok {scope : Scope} {seen : List String} {place : Place} {step : String}
    {action : Casework.Action} (hdeclared : scope.statusIds ≠ [])
    (h : actionIssues scope seen place step action = []) :
    ∃ planned, actionOf scope.keys action = .ok planned := by
  rw [actionIssues, List.append_eq_nil_iff] at h
  have hwork : ∃ work, workOf scope.keys action.kind action.config = .ok work := by
    obtain ⟨-, h⟩ := h
    split at h
    case isFalse => simp at h
    case isTrue hsupported =>
      rw [List.append_eq_nil_iff] at h
      -- The four kinds of action, each with its own check.
      have hkind : action.kind = "create_task" ∨ action.kind = "send_email" ∨
          action.kind = "update_status" ∨ action.kind = "notification" := by
        simpa [supportedActions] using hsupported
      rcases hkind with hkind | hkind | hkind | hkind <;> rw [hkind] at h ⊢
      · obtain ⟨task, htask⟩ := exists_taskOf_eq_ok scope.keys h.1
        exact ⟨.createTask task, by rw [workOf, htask]; rfl⟩
      · obtain ⟨mail, hmail⟩ := exists_mailOf_eq_ok scope.keys h.1
        exact ⟨.sendMail mail, by rw [workOf, hmail]; rfl⟩
      · obtain ⟨status, hstatus⟩ := exists_statusOf_eq_ok hdeclared h.1
        exact ⟨.setStatus status, by rw [workOf, hstatus]; rfl⟩
      · obtain ⟨recipients, audience, -, -, hnotice⟩ := noticeOf_eq scope.keys h.1
        exact ⟨.notify _, by rw [workOf, hnotice]; rfl⟩
  obtain ⟨work, hwork⟩ := hwork
  exact ⟨⟨action.id, work⟩, by rw [actionOf, hwork]; rfl⟩

-- ============================================================================
-- Waits and branches
-- ============================================================================

/-- If the check of some actions raises no issue, none of them does. -/
theorem checkActions_eq_nil {scope : Scope} {place : Place} {step : String} {seen : List String}
    {index : Nat} {actions : List Casework.Action}
    (h : (checkActions scope place step seen index actions).1 = []) :
    ∀ action ∈ actions, ∃ seen place, actionIssues scope seen place step action = [] := by
  induction actions generalizing seen index with
  | nil => simp
  | cons action rest ih =>
    rw [checkActions, List.append_eq_nil_iff] at h
    intro other hother
    rcases List.mem_cons.1 hother with rfl | hother
    · exact ⟨_, _, h.1⟩
    · exact ih h.2 other hother

/-- Actions that raise no issue can be planned. -/
theorem exists_actionsOf_eq_ok {scope : Scope} {place : Place} {step : String} {seen : List String}
    {index : Nat} {actions : List Casework.Action} (hdeclared : scope.statusIds ≠ [])
    (h : (checkActions scope place step seen index actions).1 = []) :
    ∃ planned, actions.mapM (actionOf scope.keys) = .ok planned := by
  refine exists_mapM_eq_ok fun action haction => ?_
  obtain ⟨seen, place, hissues⟩ := checkActions_eq_nil h action haction
  exact exists_actionOf_eq_ok hdeclared hissues

/-- An action that creates a task is planned as one, under the same id. -/
theorem actionOf_of_create_task {action : Casework.Action} {planned : Action}
    (hkind : action.kind = "create_task") (h : actionOf keys action = .ok planned) :
    ∃ task, taskOf keys action.config = .ok task ∧ planned = ⟨action.id, .createTask task⟩ := by
  obtain ⟨work, hwork, rfl⟩ := map_eq_ok_iff.1 h
  rw [hkind, workOf] at hwork
  obtain ⟨task, htask, rfl⟩ := map_eq_ok_iff.1 hwork
  exact ⟨task, htask, rfl⟩

/-- A task that is among the planned actions is found by its id. -/
theorem findTask_isSome {id : String} (index : Nat) {actions : List Action} {task : TaskPlan}
    (h : ⟨id, .createTask task⟩ ∈ actions) : (findTask id index actions).isSome := by
  induction actions generalizing index with
  | nil => simp at h
  | cons action rest ih =>
    rw [findTask]
    cases hrest : findTask id (index + 1) rest with
    | some found => rfl
    | none =>
      rcases List.mem_cons.1 h with rfl | h
      · simp
      · simpa [hrest] using ih (index + 1) h

/-- A condition for advancing that raises no issue can be planned: the task that it waits for is one
of the step. -/
theorem exists_waitOf_eq_ok {place : Place} {step : String} {actions : List Casework.Action}
    {advancement : Advancement} {planned : List Action}
    (hactions : actions.mapM (actionOf keys) = .ok planned)
    (h : advancementIssues place step actions advancement = []) :
    ∃ wait, waitOf advancement planned = .ok wait := by
  rw [waitOf]
  split
  case isFalse => exact ⟨none, rfl⟩
  case isTrue hkind =>
    rw [advancementIssues, beq_iff_eq.1 hkind] at h
    cases hvalue : advancement.config.value "taskActionId" with
    | text id =>
      simp only [hvalue] at h
      -- The check has found the id among the actions that create tasks, and such an action is
      -- planned as one.
      have hid : id ∈ taskActionIds actions := by simpa using ite_nil_iff.1 h
      obtain ⟨action, haction, rfl⟩ := List.mem_map.1 hid
      rw [List.mem_filter, beq_iff_eq] at haction
      obtain ⟨other, hmem, hother⟩ := exists_mem_of_mapM_eq_ok hactions haction.1
      obtain ⟨task, -, rfl⟩ := actionOf_of_create_task keys haction.2 hother
      obtain ⟨found, hfound⟩ := Option.isSome_iff_exists.1 (findTask_isSome 0 hmem)
      rw [requiredField_of_value hvalue (by simp), ok_bind]
      simp only [hfound]
      exact ⟨_, rfl⟩
    | _ => simp [hvalue] at h

/-- A branch without issues tests a field and has a value for every track but one. -/
theorem exists_guardsOf_eq_ok {place : Place} {step : String} {condition : BranchCondition}
    {tracks : Nat} (h : conditionIssues place step condition tracks = []) :
    (∃ field, fieldOf condition = .ok field) ∧
      ∃ comparison guards, guardsOf condition tracks = .ok (comparison, guards) := by
  rw [conditionIssues, List.append_eq_nil_iff] at h
  obtain ⟨htest, hfield⟩ := h
  refine ⟨?_, ?_⟩
  -- The field that the branch reads.
  · obtain ⟨field, hsome⟩ := Option.isSome_iff_exists.1 (ite_nil_iff.1 hfield)
    exact ⟨field, by rw [fieldOf, hsome]⟩
  · rw [guardsOf]
    split at htest
    -- A list of values, one fewer than there are tracks.
    case h_1 hoperator =>
      rw [List.append_eq_nil_iff] at htest
      obtain ⟨htracks, hvalues⟩ := htest
      cases hsome : condition.compareValue.texts? with
      | none => simp [hsome] at hvalues
      | some values =>
        have hlength : values.length + 1 = tracks := by
          simp only [hsome] at hvalues
          have htwo : 2 ≤ tracks := by
            by_contra hfewer
            rw [if_pos (Nat.lt_of_not_le hfewer)] at htracks
            cases htracks
          have hcount : values.length = tracks - 1 := by simpa [htwo] using hvalues
          omega
        rw [hoperator]
        simp [hsome, hlength]
    case h_4 => simp at htest
    -- A single value, with two tracks.
    all_goals
      rename_i hoperator
      rw [List.append_eq_nil_iff] at htest
      obtain ⟨htracks, hvalue⟩ := htest
      have htracks : tracks = 2 := by simpa using htracks
      cases hcompare : condition.compareValue with
      | text value =>
        rw [hoperator]
        simp [htracks]
      | _ => simp [hcompare, Json.isText, Json.text?] at hvalue

-- ============================================================================
-- Steps
-- ============================================================================

mutual

/-- A step without issues can be planned. -/
theorem exists_stepOf_eq_ok {scope : Scope} {seen : Seen} {place : Place} {step : Casework.Step}
    (hdeclared : scope.statusIds ≠ []) (h : (checkStep scope seen place step).1 = []) :
    ∃ planned, stepOf scope.keys step = .ok planned := by
  cases step with
  | standard head actions advancement =>
    simp only [checkStep, List.append_eq_nil_iff] at h
    obtain ⟨⟨-, hactions⟩, hadvancement⟩ := h
    obtain ⟨planned, hplanned⟩ := exists_actionsOf_eq_ok hdeclared hactions
    obtain ⟨wait, hwait⟩ := exists_waitOf_eq_ok scope.keys hplanned hadvancement
    exact ⟨.standard head planned wait, by rw [stepOf, hplanned, ok_bind, hwait]; rfl⟩
  | branch head condition tracks =>
    simp only [checkStep, List.append_eq_nil_iff] at h
    obtain ⟨⟨-, hcondition⟩, htracks⟩ := h
    obtain ⟨⟨field, hfield⟩, comparison, guards, hguards⟩ := exists_guardsOf_eq_ok hcondition
    obtain ⟨planned, hplanned⟩ := exists_tracksOf_eq_ok guards hdeclared htracks
    refine ⟨.branch head field comparison planned, ?_⟩
    simp only [stepOf, hfield, ok_bind, hguards, hplanned, pure_eq_ok]

/-- Steps that raise no issue can be planned. -/
theorem exists_stepsOf_eq_ok {scope : Scope} {seen : Seen} {place : Place} {index : Nat}
    {steps : List Casework.Step} (hdeclared : scope.statusIds ≠ [])
    (h : (checkSteps scope seen place index steps).1 = []) :
    ∃ planned, stepsOf scope.keys steps = .ok planned := by
  cases steps with
  | nil => exact ⟨[], rfl⟩
  | cons step rest =>
    simp only [checkSteps, List.append_eq_nil_iff] at h
    obtain ⟨first, hfirst⟩ := exists_stepOf_eq_ok hdeclared h.1
    obtain ⟨more, hmore⟩ := exists_stepsOf_eq_ok hdeclared h.2
    exact ⟨first :: more, by rw [stepsOf, hfirst, ok_bind, hmore]; rfl⟩

/-- Tracks that raise no issue can be planned, with whatever guards. -/
theorem exists_tracksOf_eq_ok {scope : Scope} {seen : Seen} {place : Place} {step : String}
    {index : Nat} {tracks : List Casework.Track} (guards : List (Option String))
    (hdeclared : scope.statusIds ≠ [])
    (h : (checkTracks scope seen place step index tracks).1 = []) :
    ∃ planned, tracksOf scope.keys guards tracks = .ok planned := by
  match tracks with
  | [] => exact ⟨[], rfl⟩
  | .mk id label steps :: rest =>
    simp only [checkTracks, List.append_eq_nil_iff] at h
    obtain ⟨⟨hempty, hsteps⟩, hrest⟩ := h
    have hsome : steps.isEmpty = false := by
      cases steps with
      | nil => simp at hempty
      | cons => rfl
    obtain ⟨planned, hplanned⟩ := exists_stepsOf_eq_ok hdeclared hsteps
    obtain ⟨more, hmore⟩ := exists_tracksOf_eq_ok (guards.drop 1) hdeclared hrest
    refine ⟨.mk guards.head?.join planned :: more, ?_⟩
    rw [tracksOf, hsome, hplanned, hmore]
    rfl

end

-- ============================================================================
-- What planned parts are made of
-- ============================================================================

variable {keys}

theorem stepOf_standard_eq_ok {head : StepHead} {actions : List Casework.Action}
    {advancement : Advancement} {planned : Step}
    (h : stepOf keys (.standard head actions advancement) = .ok planned) :
    ∃ works wait, actions.mapM (actionOf keys) = .ok works ∧ waitOf advancement works = .ok wait ∧
      planned = .standard head works wait := by
  rw [stepOf] at h
  obtain ⟨works, hworks, h⟩ := bind_eq_ok_iff.1 h
  obtain ⟨wait, hwait, h⟩ := bind_eq_ok_iff.1 h
  cases h
  exact ⟨works, wait, hworks, hwait, rfl⟩

theorem stepOf_branch_eq_ok {head : StepHead} {condition : BranchCondition}
    {tracks : List Casework.Track} {planned : Step}
    (h : stepOf keys (.branch head condition tracks) = .ok planned) :
    ∃ field comparison guards plannedTracks, fieldOf condition = .ok field ∧
      guardsOf condition tracks.length = .ok (comparison, guards) ∧
      tracksOf keys guards tracks = .ok plannedTracks ∧
      planned = .branch head field comparison plannedTracks := by
  rw [stepOf] at h
  obtain ⟨field, hfield, h⟩ := bind_eq_ok_iff.1 h
  obtain ⟨⟨comparison, guards⟩, hguards, h⟩ := bind_eq_ok_iff.1 h
  obtain ⟨plannedTracks, htracks, h⟩ := bind_eq_ok_iff.1 h
  cases h
  exact ⟨field, comparison, guards, plannedTracks, hfield, hguards, htracks, rfl⟩

/-- Several steps are planned one by one. -/
theorem stepsOf_cons_eq_ok {step : Casework.Step} {rest : List Casework.Step} {planned : List Step}
    (h : stepsOf keys (step :: rest) = .ok planned) :
    ∃ first more, stepOf keys step = .ok first ∧ stepsOf keys rest = .ok more ∧
      planned = first :: more := by
  rw [stepsOf] at h
  obtain ⟨first, hfirst, h⟩ := bind_eq_ok_iff.1 h
  obtain ⟨more, hmore, h⟩ := bind_eq_ok_iff.1 h
  cases h
  exact ⟨first, more, hfirst, hmore, rfl⟩

theorem eq_nil_of_stepsOf {steps : List Casework.Step} (h : stepsOf keys steps = .ok []) :
    steps = [] := by
  cases steps with
  | nil => rfl
  | cons step rest =>
    obtain ⟨first, more, -, -, hplanned⟩ := stepsOf_cons_eq_ok h
    cases hplanned

/-- A planned track has a step. -/
theorem tracksOf_cons_eq_ok {guards : List (Option String)} {id label : String}
    {steps : List Casework.Step} {rest : List Casework.Track} {planned : List Track}
    (h : tracksOf keys guards (.mk id label steps :: rest) = .ok planned) :
    ∃ first more, stepsOf keys steps = .ok first ∧ first ≠ [] ∧
      tracksOf keys (guards.drop 1) rest = .ok more ∧
      planned = .mk guards.head?.join first :: more := by
  rw [tracksOf] at h
  split at h
  case isTrue => cases h
  case isFalse hnonempty =>
    obtain ⟨first, hfirst, h⟩ := bind_eq_ok_iff.1 h
    obtain ⟨more, hmore, h⟩ := bind_eq_ok_iff.1 h
    cases h
    refine ⟨first, more, hfirst, ?_, hmore, rfl⟩
    rintro rfl
    exact hnonempty (by rw [eq_nil_of_stepsOf hfirst]; rfl)

end Plan

-- ============================================================================
-- Definitions
-- ============================================================================

/-- Statuses that raise no issue are not none. -/
theorem Validation.statusIds_ne_nil {d : Definition} (h : checkStatuses d.statuses = []) :
    d.statusIds ≠ [] := by
  intro hnone
  rw [Definition.statusIds, List.map_eq_nil_iff] at hnone
  rw [hnone] at h
  cases h

/-- A definition without issues has a plan. -/
theorem Plan.exists_ofDefinition_eq_ok {d : Definition} (h : d.issues = []) :
    ∃ plan, Plan.ofDefinition d = .ok plan := by
  rw [Definition.issues, List.append_eq_nil_iff, List.append_eq_nil_iff] at h
  obtain ⟨⟨hstatuses, -⟩, hsteps⟩ := h
  have hdeclared : (Validation.Scope.of d).statusIds ≠ [] := Validation.statusIds_ne_nil hstatuses
  obtain ⟨steps, hplanned⟩ := exists_stepsOf_eq_ok hdeclared hsteps
  exact ⟨⟨d.trigger, d.contactRequired, steps⟩, by
    rw [Plan.ofDefinition]
    exact bind_eq_ok_iff.2 ⟨steps, hplanned, rfl⟩⟩

/-- A definition without issues has the program of its plan. -/
theorem Definition.compile_of_issues_eq_nil {d : Definition} (h : d.issues = []) :
    ∃ plan, Plan.ofDefinition d = .ok plan ∧ d.compile = .ok plan.program := by
  obtain ⟨plan, hplan⟩ := Plan.exists_ofDefinition_eq_ok h
  refine ⟨plan, hplan, ?_⟩
  rw [Definition.compile, h, hplan]
  rfl

end Casework
