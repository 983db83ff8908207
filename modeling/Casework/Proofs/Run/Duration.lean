/-
  Casework.Proofs.Run.Duration

  How long tasks may take. An action can say in how many days its task is due, which may be any
  natural number. The number comes to two calculations: the due date of the task, counted from the
  day on which it is created, and the longest wait for the task, which is a day at least. Both have
  an end, the last day of the calendar and the longest duration, and they succeed exactly if the
  number of days does not lead beyond it.
-/
import Casework.Proofs.Run.Calls
import Casework.Proofs.Task.Provenance
import Casework.Proofs.Time.Calendar

namespace Casework

open Store Result

variable {σ : Type}

/-- A count of days, or a date, is beyond what can be calculated with. -/
def Fault.IsOverflow : Fault → Prop
  | .countTooLarge | .durationTooLong _ | .dateOutOfRange => True
  | _ => False

/-- Counts of days are durations up to the longest one. -/
theorem durationDays_cases (n : Nat) :
    (n ≤ longestDays ∧ durationDays n = .ok n) ∨
      longestDays < n ∧ ∃ f : Fault, f.IsOverflow ∧ durationDays n = .error f := by
  rw [durationDays, longestDays]
  split
  case isTrue hword =>
    simp only [Bool.or_eq_true, decide_eq_true_eq] at hword
    exact .inr ⟨by omega, .countTooLarge, trivial, rfl⟩
  case isFalse hword =>
    split
    case isTrue hlong =>
      simp only [Bool.or_eq_true, decide_eq_true_eq] at hlong
      exact .inr ⟨by omega, .durationTooLong n, trivial, rfl⟩
    case isFalse hlong =>
      simp only [Bool.or_eq_true, decide_eq_true_eq, not_or] at hlong
      exact .inl ⟨by omega, rfl⟩

-- ============================================================================
-- Due dates
-- ============================================================================

/-- The calendar has the day that is so many days later, if any number is given. -/
def Date.Fits (today : Date) (days : Option Nat) : Prop :=
  ∀ n ∈ days, today.ordinal + n ≤ lastOrdinal

/-- Before a year begins, the days fit that fit on its first day. -/
theorem Date.fits_of_year_lt {today : Date} (hvalid : today.valid) {year : Nat}
    (hyear : today.year < year)
    {days : Option Nat} (h : ∀ n ∈ days, daysBeforeYear year + n ≤ lastOrdinal) :
    today.Fits days := by
  intro n hn
  have hbefore : daysBeforeYear (today.year + 1) ≤ daysBeforeYear year := daysBeforeYear_mono hyear
  have hfits := h n hn
  have hday := (ordinal_bounds hvalid).2
  omega

namespace Activities

/-- The number of days is made a duration, then this is added to the present moment. -/
theorem dueAfter_nat (n : Nat) :
    dueAfter (.nat n) = liftFault (durationDays n) >>= fun days => now >>= fun moment =>
      match moment.addDays? days with
      | some due => pure (some due)
      | none => throw (.fault .dateOutOfRange) := rfl

/-- The due date of a task that is due after so many days is the same time of the day so many days
later, if the calendar has it. -/
theorem result_dueAfter_nat (n : Nat) {s : Session} (h : s.now.date.valid) :
    (s.now.date.ordinal + n ≤ Date.lastOrdinal ∧
      ∃ date : Date, result (dueAfter (.nat n)) s =
        (.ok (some { s.now with date }), s) ∧ date.valid ∧
        date.ordinal = s.now.date.ordinal + n) ∨
      Date.lastOrdinal < s.now.date.ordinal + n ∧
        ∃ f : Fault, f.IsOverflow ∧ result (dueAfter (.nat n)) s = (.error (.fault f), s) := by
  have hnow : result now s = (.ok s.now, s) := rfl
  rw [dueAfter_nat]
  -- The number of days has to fit into a duration first, and then the day into the calendar.
  rcases durationDays_cases n with ⟨-, hdays⟩ | ⟨hlong, f, hf, hdays⟩
  · rw [result_bind_of_ok (result_liftFault_eq_ok_iff.2 ⟨hdays, rfl⟩), result_bind_of_ok hnow,
      Moment.addDays?]
    rcases Date.addDays?_cases h n with ⟨hfits, later, hlater, hvalid, hordinal⟩ | ⟨hlate, hnone⟩
    · rw [hlater]
      exact .inl ⟨hfits, later, rfl, hvalid, hordinal⟩
    · rw [hnone]
      exact .inr ⟨hlate, .dateOutOfRange, trivial, rfl⟩
  · -- No duration is as long, and the calendar is shorter than the longest one.
    rw [result_bind, hdays]
    refine .inr ⟨?_, f, hf, rfl⟩
    rw [Date.lastOrdinal]
    rw [longestDays] at hlong
    omega

/-- The number of days as it stands in a configuration, if there is one. -/
def givenDays (days : Option Nat) : Json := (days.map Json.nat).getD .null

/-- There is a due date if there is a number of days, and it is found if the calendar has it. -/
theorem result_dueAfter (days : Option Nat) {s : Session} (h : s.now.date.valid) :
    (s.now.date.Fits days ∧ ∃ due : Option Date,
      result (dueAfter (givenDays days)) s = (.ok (due.map fun date => { s.now with date }), s) ∧
        due.map Date.ordinal = days.map (s.now.date.ordinal + ·) ∧ ∀ date ∈ due, date.valid) ∨
      ¬ s.now.date.Fits days ∧
        ∃ f : Fault, f.IsOverflow ∧ result (dueAfter (givenDays days)) s =
          (.error (.fault f), s) := by
  cases days with
  | none =>
    refine .inl ⟨fun n hn => ?_, none, rfl, rfl, fun date hdate => ?_⟩
    · cases hn
    · cases hdate
  | some n =>
    rcases result_dueAfter_nat n h with ⟨hfits, date, hresult, hvalid, hordinal⟩ | ⟨hlate, hfails⟩
    · refine .inl ⟨fun m hm => Option.some.inj hm ▸ hfits, some date, hresult,
        congrArg some hordinal, ?_⟩
      intro other hother
      cases hother
      exact hvalid
    · exact .inr ⟨fun hfits => absurd (hfits n rfl) (Nat.not_le.2 hlate), hfails⟩

/-- Nothing is created if the due date cannot be found. -/
theorem result_createTask_of_dueAfter_error {params config assignment : Fields}
    {s : Session} {f : Failure}
    (hconfig : params.value "config" = .object config)
    (hassign : config.value "assignTo" = .object assignment)
    (hdue : result (dueAfter (config.value "dueDays")) s = (.error f, s)) :
    result (createTask params) s = (.error f, s) := by
  have hread : result (liftFault ((params.value "config").givenFields "get")) s = (.ok config, s) :=
    result_liftFault_eq_ok_iff.2 ⟨hconfig ▸ Json.givenFields_object config "get", rfl⟩
  have hassigned : result (liftFault ((config.value "assignTo").givenFields "get")) s =
      (.ok assignment, s) :=
    result_liftFault_eq_ok_iff.2 ⟨hassign ▸ Json.givenFields_object assignment "get", rfl⟩
  rw [createTask, result_bind_of_ok hread, result_bind_of_ok hassigned, result_bind, hdue]

/-- Carrying out a call for a task that is due after some days, if any, gives it the same time of
the day so many days later, as long as the calendar lasts. Beyond, it fails for that. -/
structure Dates (days : Option Nat) (params : Fields) : Prop where
  within : ∀ s : Session, s.now.date.valid → s.now.date.Fits days →
    ∃ (config : Fields) (due : Option Date), params.value "config" = .object config ∧
      result (dueAfter (config.value "dueDays")) s =
        (.ok (due.map fun date => { s.now with date }), s) ∧
      due.map Date.ordinal = days.map (s.now.date.ordinal + ·) ∧ ∀ date ∈ due, date.valid
  beyond : ∀ s : Session, s.now.date.valid → ¬ s.now.date.Fits days →
    ∃ f : Fault, f.IsOverflow ∧ result (createTask params) s = (.error (.fault f), s)

end Activities

/-- The configuration of a task says whom it is for and when it is due. -/
theorem TaskPlan.field_config_due (t : TaskPlan) :
    t.config.field "assignTo" = .object t.assignTo ∧
      t.config.field "dueDays" = Activities.givenDays t.dueDays := by
  rcases t with ⟨_, _, _, _, _, _, _ | _, _ | _⟩ <;> exact ⟨rfl, rfl⟩

/-- A call for the task of an instruction asks for the date that the task has. -/
theorem Instruction.Asks.dates {i : Instruction} {base : Run.Base} {task : TaskPlan}
    {rendered params : Fields} (h : i.Asks base task rendered params) :
    Activities.Dates task.dueDays params := by
  have hassign : rendered.value "assignTo" = .object task.assignTo :=
    (h.renders.other "assignTo" (by decide)).trans task.field_config_due.1
  have hdays : rendered.value "dueDays" = Activities.givenDays task.dueDays :=
    (h.renders.other "dueDays" (by decide)).trans task.field_config_due.2
  constructor
  · intro s hvalid hfits
    rcases Activities.result_dueAfter task.dueDays hvalid with ⟨-, due, hresult, hdates⟩ | ⟨hnot, -⟩
    · exact ⟨rendered, due, h.config, hdays ▸ hresult, hdates⟩
    · exact absurd hfits hnot
  · intro s hvalid hnot
    rcases Activities.result_dueAfter task.dueDays hvalid with ⟨hfits, -⟩ | ⟨-, f, hf, hresult⟩
    · exact absurd hfits hnot
    · exact ⟨f, hf, Activities.result_createTask_of_dueAfter_error h.config hassign
        (hdays ▸ hresult)⟩

-- ============================================================================
-- Waits
-- ============================================================================

namespace Run

/-- How many days a wait lasts at most. -/
def timeoutDays (config : Json) : Except Fault Int := do
  let days ← ((config.field "timeoutDays").orElse (.int 1)).wholeOf
  durationDays (max days 1)

/-- Waits for a task for some days at most; tells whether that ended the run. -/
def awaitFor (world : World σ) (base : Base) (statuses creator task : Json) (days : Int) :
    Act σ Bool := do
  let key ← lift task.key
  endWait world base statuses creator task key (← await world (days * 86400) (·.hasCompleted key))

theorem lift_bind {α β : Type} (result : Except Fault α) (next : α → Except Fault β) :
    (lift (result >>= next) : Act σ β) = lift result >>= fun a => lift (next a) := by
  cases result <;> rfl

/-- A wait is reported, then it is found how long it lasts. -/
theorem awaitKnown_eq_awaitFor (world : World σ) (base : Base)
    (statuses step config creator task : Json) :
    awaitKnown world base statuses step config creator task =
      (report world base [("current_step_id", step)] >>= fun _ => lift (timeoutDays config) >>=
        awaitFor world base statuses creator task) := by
  rw [awaitKnown_eq, timeoutDays]
  simp only [lift_bind, bind_assoc]
  rfl

/-- The timeout of a wait is its number of days, since that is not zero. -/
theorem timeoutDays_awaitTask (creator : String) {days : Nat} (h : 1 ≤ days) :
    timeoutDays (Operation.awaitTask creator days).config = durationDays days := by
  have htruthy : (Json.nat days).truthy := by
    simpa [Json.nat, Json.truthy, Number.isZero] using Nat.one_le_iff_ne_zero.1 h
  have hfield : (Operation.awaitTask creator days).config.field "timeoutDays" = .nat days := rfl
  rw [timeoutDays, hfield, Json.orElse, if_pos htruthy]
  show durationDays (max (days : Int) 1) = _
  rw [max_eq_left (by omega)]

/-- Carrying out a wait whose task is known reports it, then waits for so many days at most, if
there is such a duration. If there is none, it fails for that. -/
structure Times (wait : Instruction) (creator : String) (days : Nat) : Prop where
  within : days ≤ longestDays → ∀ {σ : Type} (world : World σ) (base : Base)
    (contact statuses : Json)
    (r : RunState σ), (r.vars.value (taskPath (.text creator) "taskId")).truthy →
      outcome (execute world base contact statuses wait.toJson) r =
        outcome (report world base [("current_step_id", .text wait.id)] >>= fun _ =>
          awaitFor world base statuses (.text creator)
            (r.vars.value (taskPath (.text creator) "taskId")) days) r
  beyond : longestDays < days → ∃ f : Fault, f.IsOverflow ∧
    ∀ {σ : Type} (world : World σ) (base : Base) (contact statuses : Json) (r : RunState σ),
      (r.vars.value (taskPath (.text creator) "taskId")).truthy →
        outcome (execute world base contact statuses wait.toJson) r =
          outcome (report world base [("current_step_id", .text wait.id)] >>= fun _ =>
            throw (.fault f)) r

/-- A wait whose days fit into a duration waits as long, and one whose days do not fit fails. -/
theorem times_of_awaitTask {wait : Instruction} {creator : String} {days : Nat}
    (hwait : wait.operation = .awaitTask creator days) (h : 1 ≤ days) :
    Times wait creator days := by
  -- A wait for a task that is known reports where it stands, and then takes its timeout.
  have hexecute : ∀ {σ : Type} (world : World σ) (base : Base) (contact statuses : Json)
    (r : RunState σ),
      (r.vars.value (taskPath (.text creator) "taskId")).truthy →
        outcome (execute world base contact statuses wait.toJson) r =
          outcome (report world base [("current_step_id", .text wait.id)] >>= fun _ =>
            lift (durationDays days) >>= awaitFor world base statuses (.text creator)
              (r.vars.value (taskPath (.text creator) "taskId"))) r := by
    intro σ world base contact statuses r hknown
    have hcreator : (Operation.awaitTask creator days).config.fieldOf "taskStepId" =
        .ok (.text creator) :=
      rfl
    rw [outcome_execute_wait hwait, hwait, outcome_awaitTask world base statuses _ hcreator,
      if_pos hknown,
      awaitKnown_eq_awaitFor, timeoutDays_awaitTask creator h]
  rcases durationDays_cases days with ⟨hfits, hdays⟩ | ⟨hlong, f, hf, hdays⟩
  · refine ⟨fun _ σ world base contact statuses r hknown => ?_, fun hlong => ?_⟩
    · rw [hexecute world base contact statuses r hknown, hdays]
      rfl
    · exact absurd hfits (Int.not_le.2 hlong)
  · refine ⟨fun hfits => absurd hfits (Int.not_le.2 hlong), fun _ => ⟨f, hf, ?_⟩⟩
    intro σ world base contact statuses r hknown
    rw [hexecute world base contact statuses r hknown, hdays]
    rfl

end Run

-- ============================================================================
-- Definitions
-- ============================================================================

/-- In how many days an action says that its task is due. -/
def Action.dueDays? (a : Action) : Option Nat := (a.config.value "dueDays").count?

/-- The days of a task are those that its config counts. -/
theorem Plan.count?_of_daysOf {j : Json} {days : Option Nat} (h : daysOf j = .ok days) :
    j.count? = days := by
  unfold daysOf at h
  split at h
  case h_1 =>
    cases h
    rfl
  case h_2 =>
    split at h
    case h_1 n hcount =>
      cases h
      exact hcount
    case h_2 => cases h

theorem Plan.Describes.dueDays?_eq {keys : Entries String} {action : Casework.Action}
    {task : TaskPlan}
    (h : Describes keys action.config task) : action.dueDays? = task.dueDays :=
  count?_of_daysOf h.dueDays

namespace Definition

variable {d : Definition} {p : Program}

/-- Accepted durations. Of every task that a run calls for, the due date is found exactly if the
calendar has it, counting from the day on which the call is carried out the days that the action of
the task says. Every wait lasts as many days at most, or seven if the action says none, but a day at
least, and it begins exactly if there is such a duration. So before the year 3000 both go well if no
action says more days than there are from then on. -/
theorem durations_fit (h : d.compile = .ok p) :
    (∀ {σ : Type} (world : World σ) (params : Fields) (begun : RunState σ),
      params.value "steps" = .list (p.map Instruction.toJson) → begun.calls = [] →
      ∀ call failure, (⟨.createTask, call⟩, failure) ∈
      (Run.outcome (Run.run world params) begun).2.calls →
        ∃ action i, d.Authors p action i ∧ action.kind = "create_task" ∧
          call.value "step_id" = .text i.id ∧ Activities.Dates action.dueDays? call) ∧
    (∀ wait ∈ p, ∀ creator days, wait.operation = .awaitTask creator days →
      ∃ action i, d.Authors p action i ∧ action.kind = "create_task" ∧ i.id = creator ∧
        days = max (action.dueDays?.getD defaultWaitDays) 1 ∧ Run.Times wait creator days) ∧
    ((∀ action ∈ d.actions, action.kind = "create_task" → ∀ n ∈ action.dueDays?,
        Date.daysBeforeYear 3000 + n ≤ Date.lastOrdinal) →
      ∀ action ∈ d.actions, action.kind = "create_task" →
        max (action.dueDays?.getD defaultWaitDays) 1 ≤ longestDays ∧
          ∀ today : Date, today.valid → today.year < 3000 → today.Fits action.dueDays?) := by
  refine ⟨?_, ?_, ?_⟩
  -- A call for a task is the call of an instruction, and this has an author, which says when the
  -- task is due.
  · intro σ world params begun hgiven hbegun call failure hcall
    have hsteps : (params.value "steps").givenItemsOf = .ok (p.map Instruction.toJson) :=
      hgiven ▸ Json.givenItemsOf_list _
    obtain ⟨i, hi, task, rendered, hasks⟩ := Run.asks_of_called hsteps world hbegun hcall
    obtain ⟨action, hauthors, hkind, hdescribes⟩ := exists_author h hi hasks.creates
    exact ⟨action, i, hauthors, hkind, hasks.step, hdescribes.dueDays?_eq ▸ hasks.dates⟩
  -- A wait is for a task that an instruction before it creates.
  · intro wait hwait creator days hawaits
    obtain ⟨j, hj⟩ := List.mem_iff_getElem?.1 hwait
    obtain ⟨m, c, task, -, hm, hid, hcreates, hdays, -⟩ := exists_creator h hj hawaits
    obtain ⟨action, hauthors, hkind, hdescribes⟩ :=
      exists_author h (List.mem_of_getElem? hm) hcreates
    refine ⟨action, c, hauthors, hkind, hid, hdescribes.dueDays?_eq ▸ hdays, ?_⟩
    exact Run.times_of_awaitTask hawaits (hdays ▸ le_max_right _ _)
  -- Up to the year 3000 both fit, since the calendar has as many days left then.
  · intro hdue action haction hkind
    have hdue := hdue action haction hkind
    refine ⟨?_, fun today hvalid hyear => Date.fits_of_year_lt hvalid hyear hdue⟩
    have hbegun : Date.daysBeforeYear 3000 = 1095362 := rfl
    rw [longestDays]
    cases hdays : action.dueDays? with
    | none => decide
    | some n =>
      have hfits := hdue n hdays
      rw [hbegun, Date.lastOrdinal] at hfits
      rw [Option.getD_some]
      omega

/-- A definition whose only task is due after so many days, and is waited for. -/
def dated (days : Nat) : Definition where
  id := "case"
  name := "Case"
  description := none
  trigger := ⟨.manual, none⟩
  contactRequired := false
  statuses := [⟨"open", "Open", .whole 1, none⟩]
  vars := []
  phases := []
  steps := [.standard ⟨"check", "Check", none⟩
    [⟨"ask", "create_task", ⟨[("assignTo", .obj [("type", .text "role"), ("role", .text "agent")]),
      ("dueDays", .nat days)]⟩⟩]
    ⟨"when_task_completed", ⟨[("taskActionId", .text "ask")]⟩⟩]

/-- The program of `dated`. -/
def datedProgram (days : Nat) : Program := [
  ⟨"trigger_start", "Trigger", none, .start ⟨.manual, none⟩ false⟩,
  ⟨"ask", "Check: Create Task", none, .work <| .createTask {
    title := ""
    links := []
    kind := .standard
    assignTo := ⟨[("type", .text "role"), ("role", .text "agent")]⟩
    priority := .text "medium"
    requireComment := false
    description := none
    dueDays := some days }⟩,
  ⟨"check_wait_task", "Check: Wait for Task", none, .awaitTask "ask" (max days 1)⟩,
  ⟨"workflow_end", "Workflow End", none, .mark⟩]

/-- The only action of `dated` says in how many days its task is due. -/
theorem dueDays?_of_mem_dated {days : Nat} {action : Action} (h : action ∈ (dated days).actions) :
    action.dueDays? = some days := by
  obtain rfl := List.mem_singleton.1 h
  rfl

/-- A task can be due in three days, and be waited for as long. -/
theorem durations_fit_dated : (dated 3).compile = .ok (datedProgram 3) ∧
    (∃ call failure, (⟨.createTask, call⟩, failure) ∈ (Run.outcome (Run.run Run.silent
      (Run.paramsOf (.texts ["open"]) ((datedProgram 3).map Instruction.toJson)))
        (.fresh ())).2.calls ∧
        Activities.Dates (some 3) call) ∧
    ∃ wait ∈ datedProgram 3, Run.Times wait "ask" 3 := by
  have hcompile : (dated 3).compile = .ok (datedProgram 3) := by
    with_unfolding_all exact rfl
  obtain ⟨hdates, hwaits, -⟩ := durations_fit hcompile
  refine ⟨hcompile, ?_, ?_⟩
  · obtain ⟨call, rest, hcalls⟩ : ∃ call rest, (Run.outcome (Run.run Run.silent
        (Run.paramsOf (.texts ["open"]) ((datedProgram 3).map Instruction.toJson)))
          (.fresh ())).2.calls =
          (⟨.createTask, call⟩, none) :: rest := ⟨_, _, rfl⟩
    -- Both the call and the wait are found by running the program.
    have hcall := hcalls ▸ List.mem_cons_self
    obtain ⟨action, i, hauthors, -, -, hdated⟩ := hdates _ _ _ rfl rfl call none hcall
    exact ⟨call, none, hcall, dueDays?_of_mem_dated hauthors.mem.1 ▸ hdated⟩
  · obtain ⟨wait, hwait, hawaits⟩ : ∃ wait ∈ datedProgram 3, wait.operation = .awaitTask "ask" 3 :=
      ⟨_, List.mem_of_getElem? (show (datedProgram 3)[2]? = some _ from rfl), rfl⟩
    obtain ⟨-, -, -, -, -, -, htimes⟩ := hwaits wait hwait "ask" 3 hawaits
    exact ⟨wait, hwait, htimes⟩

/-- No task can be due in a thousand million days, and no wait can last as long, but the definition
compiles. -/
theorem not_all_durations_fit :
    (¬ ∀ (d : Definition) (p : Program), d.compile = .ok p → ∀ params : Fields,
      params.value "steps" = .list (p.map Instruction.toJson) → ∀ call failure,
      (⟨.createTask, call⟩, failure) ∈
      (Run.outcome (Run.run Run.silent params) (.fresh ())).2.calls →
      ∀ s : Session, s.now.date.valid → s.now.date.year < 3000 → ∀ f : Fault, f.IsOverflow →
        (result (Activities.createTask call) s).1 ≠ .error (.fault f)) ∧
    ¬ ∀ (d : Definition) (p : Program), d.compile = .ok p → ∀ wait ∈ p, ∀ creator days,
      wait.operation = .awaitTask creator days →
        ∃ longest, Run.timeoutDays wait.operation.config = .ok longest := by
  have hcompile : (dated 1000000000).compile = .ok (datedProgram 1000000000) := by
    with_unfolding_all exact rfl
  constructor
  -- The first call of the run fails when its activity is carried out.
  · intro h
    obtain ⟨call, rest, hcalls, hfails⟩ : ∃ call rest, (Run.outcome (Run.run Run.silent
        (Run.paramsOf (.texts ["open"]) ((datedProgram 1000000000).map Instruction.toJson)))
          (.fresh ())).2.calls = (⟨.createTask, call⟩, none) :: rest ∧
        (result (Activities.createTask call) (opened ⟨⟨2026, 1, 1⟩, 0, 0, 0, 0, some 0⟩)).1 =
          .error (.fault (.durationTooLong 1000000000)) := ⟨_, _, rfl, rfl⟩
    have hcall := hcalls ▸ List.mem_cons_self
    exact h _ _ hcompile _ rfl call none hcall _ rfl (by decide)
      (.durationTooLong 1000000000) trivial hfails
  -- The wait fails as it takes its timeout.
  · intro h
    obtain ⟨wait, hwait, hawaits, hlong⟩ : ∃ wait ∈ datedProgram 1000000000,
        wait.operation = .awaitTask "ask" 1000000000 ∧
          Run.timeoutDays wait.operation.config = .error (.durationTooLong 1000000000) :=
      ⟨_, List.mem_of_getElem? (show (datedProgram 1000000000)[2]? = some _ from rfl), rfl, rfl⟩
    obtain ⟨longest, hfits⟩ := h _ _ hcompile wait hwait _ _ hawaits
    rw [hlong] at hfits
    cases hfits

end Definition
end Casework
