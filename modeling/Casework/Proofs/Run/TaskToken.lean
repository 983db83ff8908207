/-
  Casework.Proofs.Run.TaskToken

  Tokens that read a task. What is known about a task is put under the id of the instruction that
  created it: its id when it is created, the decision when it has been waited for. No other
  instruction puts anything there, and a run only goes forward, so from then on the token of this
  path shows it wherever the run comes to. If the instruction has the id of its action, an authored
  token reads the task of the action.
-/
import Casework.Proofs.Program.AuthoredId
import Casework.Proofs.Run.Seeded

namespace Casework

open Result

variable {σ : Type}

namespace Run

-- ============================================================================
-- What stays
-- ============================================================================

section Reaching

variable {world : World σ} {s : Setup} {p : Program}
  (hsteps : s.steps = p.map Instruction.toJson) (hplaces : Places p s.table)
  (hlinked : p.LinkedFrom 0 p)

include hsteps

/-- The step that is carried out at a place is the instruction there. -/
theorem Goes.exists_instruction {here there : Nat × RunState σ} (h : Goes world s here there) :
    ∃ i, p[here.1]? = some i ∧
      outcome (execute world s.base s.contact s.statuses i.toJson) (entering (.text i.id) here.2) =
        (.ok false, there.2) ∧
      Walk.next i.toJson here.1 s.table there.2.vars = .ok there.1 := by
  obtain ⟨step, id, hsome, hid, hexecute, hnext⟩ := h
  rw [hsteps] at hsome
  obtain ⟨i, hi, rfl⟩ := Program.exists_getElem?_of_map hsome
  rw [i.requiredField_id] at hid
  cases hid
  exact ⟨i, hi, hexecute, hnext⟩

include hplaces hlinked

/-- A run goes forward. -/
theorem Goes.lt {here there : Nat × RunState σ} (h : Goes world s here there) :
    here.1 < there.1 := by
  obtain ⟨i, hi, -, hnext⟩ := h.exists_instruction hsteps
  have hhere := hlinked here.1 i hi
  rw [Nat.zero_add] at hhere
  obtain ⟨place, hplace, hforward, -⟩ := Walk.next_of_linked hplaces hi hhere there.2.vars
  rw [hnext] at hplace
  cases hplace
  exact hforward

/-- A run goes forward. -/
theorem Reaches.le {here there : Nat × RunState σ} (h : Reaches world s here there) :
    here.1 ≤ there.1 := by
  induction h with
  | refl => exact Nat.le_refl _
  | tail _ hgoes ih => exact ih.trans (hgoes.lt hsteps hplaces hlinked).le

/-- What no instruction puts from a place on stays as it is there. -/
theorem Reaches.value_eq {path : String} {here there : Nat × RunState σ}
    (h : Reaches world s here there)
    (hputs : ∀ k i, here.1 ≤ k → p[k]? = some i → ¬ Puts i path) :
    there.2.vars.value path = here.2.vars.value path := by
  induction h with
  | refl => rfl
  | @tail between there hreaches hgoes ih =>
    obtain ⟨i, hi, hexecute, -⟩ := hgoes.exists_instruction hsteps
    have hfrom := Reaches.le hsteps hplaces hlinked hreaches
    exact (value_of_execute_of_not_puts (hputs _ i hfrom hi) hexecute).trans ih

end Reaching

-- ============================================================================
-- Creating a task, and waiting for it
-- ============================================================================

/-- Different names give different paths. -/
theorem pathIn_ne {name other : String} (hne : name ≠ other) (id : String) :
    Variables.pathIn id name ≠ Variables.pathIn id other := by
  intro h
  have htext := congrArg String.toList h
  simp only [Variables.pathIn, String.toList_append] at htext
  exact hne (String.toList_inj.1 (List.append_cancel_left htext))

/-- Of the three values of a decision that are put one after the other, the first one stays. -/
theorem outcome_takeDecision (creator : String) (approval : Fields) (r : RunState σ) :
    ∃ r', outcome (takeDecision (.text creator) approval) r = (.ok (), r') ∧ r'.inbox = r.inbox ∧
      r'.vars.value (Variables.pathIn creator "outcome") =
        (approval.value "outcome").orElse (.text "") := by
  refine ⟨_, rfl, rfl, ?_⟩
  have hcomment := pathIn_ne (show "outcome" ≠ "comment" by decide) creator
  have happroved := pathIn_ne (show "outcome" ≠ "approvedBy" by decide) creator
  show Entries.value
    (Entries.put (Entries.put (Entries.put _ (Variables.pathIn creator "outcome") _)
    (Variables.pathIn creator "comment") _) (Variables.pathIn creator "approvedBy") _) _ = _
  rw [Entries.value, Entries.get?_put, if_neg happroved, Entries.get?_put, if_neg hcomment,
    Entries.get?_put, if_pos rfl]
  rfl

/-- A decision about a task is taken over as it is known then. -/
theorem value_of_settle {creator : String} {key : Key} {r r' : RunState σ}
    (h : outcome (settle (.text creator) key) r = (.ok false, r')) {approval : Fields}
    (happroval : r'.inbox.approval? key = some approval) (hgiven : approval.isEmpty = false) :
    r'.vars.value (Variables.pathIn creator "outcome") =
      (approval.value "outcome").orElse (.text "") := by
  rw [settle, outcome_get_bind] at h
  dsimp only at h
  split at h
  -- A decision is known, and not empty, so its outcome is taken.
  case h_1 known hknown =>
    split at h
    case isTrue hempty =>
      cases h
      rw [hknown] at happroval
      cases happroval
      rw [hgiven] at hempty
      cases hempty
    case isFalse =>
      obtain ⟨taken, htaken, hinbox, hvalue⟩ := outcome_takeDecision creator known r
      rw [outcome_bind, htaken] at h
      cases h
      rw [hinbox, hknown] at happroval
      cases happroval
      exact hvalue
  -- No decision is known, against the assumption.
  case h_2 hnone =>
    cases h
    rw [hnone] at happroval
    cases happroval

/-- A wait that the run goes on from has settled what was decided. -/
theorem exists_settle_of_awaitKnown {world : World σ} {base : Base}
    {statuses step config creator : Json} {task : String} {r r' : RunState σ}
    (h : outcome (awaitKnown world base statuses step config creator (.text task)) r =
      (.ok false, r')) :
    ∃ settling, outcome (settle creator (.text task)) settling = (.ok false, r') := by
  rw [awaitKnown] at h
  obtain ⟨_, _, -, h⟩ := outcome_bind_eq_ok_iff.1 h
  obtain ⟨_, -, h⟩ := outcome_lift_bind_eq_ok_iff.1 h
  obtain ⟨_, -, h⟩ := outcome_lift_bind_eq_ok_iff.1 h
  obtain ⟨key, hkey, h⟩ := outcome_lift_bind_eq_ok_iff.1 h
  cases hkey
  obtain ⟨held, waited, -, h⟩ := outcome_bind_eq_ok_iff.1 h
  cases held with
  -- The task was not completed in time, and the run would end here.
  | false =>
    obtain ⟨_, _, -, h⟩ := outcome_bind_eq_ok_iff.1 h
    cases h
  -- It was completed: the run goes on, at once or after a moment's grace.
  | true =>
    rw [if_pos rfl, outcome_get_bind] at h
    dsimp only at h
    split at h
    · obtain ⟨_, decided, -, h⟩ := outcome_bind_eq_ok_iff.1 h
      exact ⟨decided, h⟩
    · exact ⟨waited, h⟩

end Run

-- ============================================================================
-- One wait for a task
-- ============================================================================

/-- In front of a wait, and in the instructions of its step, there is only work. -/
theorem Plan.LowersTo.exists_work {p : Program} {keys : Entries String} {ids : Naming}
    {s : StandardStep}
    {start size j k : Nat} {i : Instruction} {creator : String} {days : Nat}
    (h : LowersTo p keys ids s start size) (hi : p[j]? = some i)
    (hwait : i.operation = .awaitTask creator days) (hend : j < start + size) (hstart : start ≤ k)
    (hk : k < j) : ∃ c work, p[k]? = some c ∧ c.operation = .work work := by
  obtain ⟨works, wait, n, hworks, -, hat, rfl⟩ := h
  obtain ⟨r, rfl⟩ := Nat.exists_eq_add_of_le (hstart.trans hk.le)
  obtain ⟨q, rfl⟩ := Nat.exists_eq_add_of_le hstart
  -- The actions come first, so the wait is behind all of them.
  have hlast : works.length ≤ r := by
    by_contra hr
    obtain ⟨action, -, work, -, hwork⟩ := exists_action_of_lt hworks hat (Nat.lt_of_not_le hr) hi
    rw [hwait] at hwork
    cases hwork
  -- The wait is the last instruction, so what is before it belongs to an action.
  have hq : q < works.length := by
    cases wait with
    | none => rw [Step.size] at hend; omega
    | some wait => rw [Step.size] at hend; omega
  obtain ⟨hlength, -⟩ := List.getElem?_eq_some_iff.1 hi
  have hc : p[start + q]? = some p[start + q] := List.getElem?_eq_getElem (hk.trans hlength)
  obtain ⟨action, -, work, -, hwork⟩ := exists_action_of_lt hworks hat hq hc
  exact ⟨_, work, hc, hwork⟩

namespace Definition

variable {d : Definition} {p : Program}

/-- No two waits are for the same task. -/
theorem not_lt_of_awaits (h : d.compile = .ok p) {j k : Nat} {i c : Instruction} {creator : String}
    {days more : Nat} (hi : p[j]? = some i) (hwait : i.operation = .awaitTask creator days)
    (hc : p[k]? = some c) (hagain : c.operation = .awaitTask creator more) : ¬ j < k := by
  intro hlt
  obtain ⟨table, -, hplaces, -⟩ := exists_linked h
  obtain ⟨m, _, _, hfirst, -, -, -⟩ := exists_awaited h hi hwait
  obtain ⟨m', start, size, hsecond, ⟨s, -, ids, hlowers⟩, hstart, hend⟩ :=
    exists_awaited h hc hagain
  obtain ⟨a, _, ha, hid, -⟩ := hfirst.creates
  obtain ⟨b, _, hb, hid', -⟩ := hsecond.creates
  obtain rfl : m = m' := hplaces.eq ha hb (hid.trans hid'.symm)
  -- The first wait would stand between the creation and the second wait.
  obtain ⟨other, work, hother, hwork⟩ :=
    hlowers.exists_work hc hagain hend (hstart.trans hfirst.before.le) hlt
  rw [hi, Option.some.injEq] at hother
  rw [← hother, hwait] at hwork
  cases hwork

/-- A task is waited for at one place only. -/
theorem eq_of_awaits (h : d.compile = .ok p) {j k : Nat} {i c : Instruction} {creator : String}
    {days more : Nat} (hi : p[j]? = some i) (hwait : i.operation = .awaitTask creator days)
    (hc : p[k]? = some c) (hagain : c.operation = .awaitTask creator more) : j = k :=
  Nat.le_antisymm (Nat.le_of_not_lt (not_lt_of_awaits h hc hagain hi hwait))
    (Nat.le_of_not_lt (not_lt_of_awaits h hi hwait hc hagain))

end Definition

-- ============================================================================
-- Tokens of tasks
-- ============================================================================

/-- The paths of task variables can stand in tokens. -/
theorem isTokenPath_pathIn {id name : String} (hid : StepId.IsId id)
    (hname : name ∈ Run.taskNames) :
    Template.IsTokenPath (Variables.pathIn id name).toList := by
  have hnames : ∀ other ∈ Run.taskNames, other.toList.all Template.isPathChar := by decide
  refine ⟨by simp [Variables.pathIn, String.toList_append], fun c hc => ?_⟩
  simp only [Variables.pathIn, String.toList_append, List.mem_append] at hc
  rcases hc with (hc | hc) | hc
  · exact StepId.isPathChar_of_isIdChar (hid.2 c hc)
  · obtain rfl := List.mem_singleton.1 hc
    decide
  · exact List.all_eq_true.1 (hnames name hname) c hc

namespace Run

/-- In the runs of a program, the tokens of an id read the task that is created at place `m`. -/
structure Reads (world : World σ) (s : Setup) (p : Program) (m : Nat) (id : String) : Prop where
  /-- The instruction creates a task. From then on the token of the task shows which one it is. -/
  taskId : ∀ (r : RunState σ) (there : Nat × RunState σ), Goes world s (m, r) there →
    ∃ task, task ≠ "" ∧ Creates world r there.2 id task ∧ ∀ later, Reaches world s there later →
      Template.render (Template.token (Variables.pathIn id "taskId")) later.2.vars = task
  /-- A wait for the task of the instruction finds the task that was created there. If the run goes
  on from it with a decision about this task, the token of the outcome shows it from then on. -/
  decision : ∀ j wait days, p[j]? = some wait → wait.operation = .awaitTask id days →
    ∀ (begun r : RunState σ) (there : Nat × RunState σ), Comes world s begun j r →
      Goes world s (j, r) there →
        ∃ task, task ≠ "" ∧ HasCreated world s begun m id task (j, r) ∧
          ∀ approval, there.2.inbox.approval? (.text task) = some approval →
            approval.isEmpty = false →
            ∀ later, Reaches world s there later →
              Template.render (Template.token (Variables.pathIn id "outcome")) later.2.vars =
                ((approval.value "outcome").orElse (.text "")).plain

theorem orElse_text_ne_null (j : Json) (default : String) : j.orElse (.text default) ≠ .null := by
  rw [Json.orElse]
  split
  case isTrue htruthy =>
    rintro rfl
    cases htruthy
  case isFalse => simp

section Tokens

variable {world : World σ} {s : Setup} {p : Program} {m : Nat} {i : Instruction}
  (hworld : world.NamesTasks) (hsteps : s.steps = p.map Instruction.toJson)
  (hplaces : Places p s.table)
  (hlinked : p.LinkedFrom 0 p) (hid : StepId.IsId i.id) (hi : p[m]? = some i)

include hplaces hid hi

/-- Only the instruction that creates a task puts its id. -/
theorem not_puts_taskId {k : Nat} {other : Instruction} (hother : p[k]? = some other) (hk : k ≠ m) :
    ¬ Puts other (Variables.pathIn i.id "taskId") := by
  have hdot : '.' ∉ "taskId".toList := by decide
  rintro (⟨_, -, hpath⟩ | ⟨creator, days, -, name, hname, hpath⟩)
  · obtain ⟨hsame, -⟩ := Variables.pathIn_inj hid.not_mem_dot hdot hpath
    exact hk (hplaces.eq hother hi hsame.symm)
  · obtain ⟨-, rfl⟩ := Variables.pathIn_inj hid.not_mem_dot hdot hpath
    exact absurd hname (by decide)

include hworld hsteps hlinked

/-- The task that is created is read from its token. -/
theorem render_taskId {plan : TaskPlan} (hcreates : i.operation = .work (.createTask plan))
    {r : RunState σ} {there : Nat × RunState σ} (h : Goes world s (m, r) there) :
    ∃ task, task ≠ "" ∧ Creates world r there.2 i.id task ∧ ∀ later, Reaches world s there later →
      Template.render (Template.token (Variables.pathIn i.id "taskId")) later.2.vars = task := by
  -- The step at the place is the one that creates the task, and it has succeeded.
  obtain ⟨c, hc, hexecute, -⟩ := h.exists_instruction hsteps
  rw [hi, Option.some.injEq] at hc
  subst hc
  rw [outcome_execute_create hcreates] at hexecute
  obtain ⟨_, created, hcreated, hgoesOn⟩ := outcome_bind_eq_ok_iff.1 hexecute
  cases hgoesOn
  obtain ⟨task, hne, htask, hvalue⟩ := created_of_createTask hworld hcreated
  refine ⟨task, hne, htask, fun later hlater => ?_⟩
  have hforward := h.lt hsteps hplaces hlinked
  -- No instruction behind it puts the variable again.
  have hkept := hlater.value_eq hsteps hplaces hlinked fun k other hk hother =>
    not_puts_taskId hplaces hid hi hother (Nat.ne_of_gt (hforward.trans_le hk))
  have hshown : later.2.vars.value (Variables.pathIn i.id "taskId") = .text task :=
    hkept.trans hvalue
  rw [Template.render_token (isTokenPath_pathIn hid (by decide)), Template.shown, hshown]
  rfl

/-- What is decided about a task is read from its token, if it is waited for at one place only. -/
theorem render_outcome {j : Nat} {wait : Instruction} {days : Nat} (hwait : p[j]? = some wait)
    (hawaits : wait.operation = .awaitTask i.id days)
    (honce : ∀ (k : Nat) (other : Instruction) (more : Nat), p[k]? = some other →
      other.operation = .awaitTask i.id more → k = j) {begun r : RunState σ}
    {there : Nat × RunState σ} (hcomes : Comes world s begun j r) (h : Goes world s (j, r) there) :
    ∃ task, task ≠ "" ∧ HasCreated world s begun m i.id task (j, r) ∧
      ∀ approval, there.2.inbox.approval? (.text task) = some approval → approval.isEmpty = false →
        ∀ later, Reaches world s there later →
          Template.render (Template.token (Variables.pathIn i.id "outcome")) later.2.vars =
            ((approval.value "outcome").orElse (.text "")).plain := by
  -- The wait comes behind the creation, so the task is known when the run comes to it.
  obtain ⟨m', hawaited⟩ := hlinked.exists_awaited hwait hawaits
  obtain ⟨c, _, hc, hsame, -⟩ := hawaited.creates
  obtain rfl : m' = m := hplaces.eq hc hi hsame
  obtain ⟨task, hne, hcreated, hknown⟩ :=
    awaits_of_comes hworld hsteps hplaces hlinked hawaited hawaits hcomes
  refine ⟨task, hne, hcreated, fun approval happroval hgiven later hlater => ?_⟩
  obtain ⟨w, hw, hexecute, -⟩ := h.exists_instruction hsteps
  rw [hwait, Option.some.injEq] at hw
  subst hw
  rw [Awaits, hexecute] at hknown
  obtain ⟨settling, hsettle⟩ := exists_settle_of_awaitKnown hknown.symm
  -- When the wait is over, the outcome of the decision is a variable.
  have hvalue := value_of_settle hsettle happroval hgiven
  have hforward := h.lt hsteps hplaces hlinked
  have hdot : '.' ∉ "outcome".toList := by decide
  -- No other instruction puts that variable: creations put the id of the task, and this is the only
  -- wait for it.
  have hputs : ∀ (k : Nat) (other : Instruction), there.1 ≤ k → p[k]? = some other →
      ¬ Puts other (Variables.pathIn i.id "outcome") := by
    rintro k other hk hother (⟨_, -, hpath⟩ | ⟨creator, more, hagain, name, -, hpath⟩)
    · obtain ⟨-, hname⟩ := Variables.pathIn_inj hid.not_mem_dot hdot hpath
      exact absurd hname (by decide)
    · obtain ⟨rfl, -⟩ := Variables.pathIn_inj hid.not_mem_dot hdot hpath
      have hplace := honce k other more hother hagain
      omega
  have hshown := (hlater.value_eq hsteps hplaces hlinked hputs).trans hvalue
  rw [Template.render_token (isTokenPath_pathIn hid (by decide)), Template.shown, hshown]
  split
  case h_1 hnull => exact absurd hnull (orElse_text_ne_null _ "")
  case h_2 => rfl

end Tokens

end Run

namespace Definition

variable {d : Definition} {p : Program}

/-- Authored ids in templates. If the id of an action that creates a task is clean, its instruction
has exactly this id, unless something that is named before it suggests the same id. Where it has
this id, the tokens of the id read the task of the action: in every run, in a world that names its
tasks. -/
theorem authored_id_reads (h : d.compile = .ok p) {action : Action} {i : Instruction}
    (hauthors : d.Authors p action i) (hkind : action.kind = "create_task")
    (hclean : StepId.IsClean action.id) :
    i.operation.word = "assign_task" ∧
      (∃ plan before after, Plan.ofDefinition d = .ok plan ∧ p = plan.program ∧
        plan.bases = before ++ action.id :: after ∧
        i.id = StepId.fresh (StepId.freshAll [] before).2 action.id ∧
        (i.id = action.id ↔ ∀ base ∈ before, StepId.sanitize base ≠ action.id)) ∧
      (i.id = action.id → ∀ m, p[m]? = some i → ∀ {σ : Type} (world : World σ), world.NamesTasks →
        ∀ s : Run.Setup, s.steps = p.map Instruction.toJson → Walk.gotoTable s.steps = .ok s.table →
          Run.Reads world s p m action.id) := by
  obtain ⟨work, hwork, hoperation⟩ := hauthors.does h
  rw [hkind, Plan.workOf] at hwork
  obtain ⟨task, -, rfl⟩ := map_eq_ok_iff.1 hwork
  obtain ⟨plan, before, after, hplan, hprogram, hbases, hid⟩ :=
    hauthors.exists_named h hclean.isId.1
  refine ⟨by rw [hoperation]; rfl, ⟨plan, before, after, hplan, hprogram, hbases, hid, ?_⟩, ?_⟩
  · rw [hid]
    exact hclean.fresh_eq_self_iff before
  · intro hsame m hi σ world hworld s hsteps htable
    obtain ⟨table, hgoto, hplaces, hlinked⟩ := exists_linked h
    rw [hsteps, hgoto, Except.ok.injEq] at htable
    subst htable
    -- With its own id the action writes both variables under the id that the author gave.
    have hisId : StepId.IsId i.id := hsame ▸ hclean.isId
    rw [← hsame]
    refine ⟨fun r there hgoes => ?_, fun j wait days hwait hawaits begun r there hcomes hgoes => ?_⟩
    · exact Run.render_taskId hworld hsteps hplaces hlinked hisId hi hoperation hgoes
    · exact Run.render_outcome hworld hsteps hplaces hlinked hisId hi hwait hawaits
        (fun k other more hother hagain => eq_of_awaits h hother hagain hwait hawaits) hcomes hgoes

/-- A run of `deciding`, set up. -/
def decidedSetup : Run.Setup where
  base := ⟨.text "execution", .text "org"⟩
  contact := .null
  statuses := .texts ["open"]
  steps := (decided "ask").map Instruction.toJson
  table := Walk.places [] 0 (decided "ask")

/-- The silent world gives all tasks the same id. -/
theorem eq_task_of_creates {r r' : RunState Unit} {creator task : String}
    (h : Run.Creates Run.silent r r' creator task) : task = "task" := by
  obtain ⟨params, answer, -, -, hanswer, htask⟩ := h
  cases hanswer
  have hfield : (Json.obj [("taskId", .text "task")]).requiredField "taskId" =
    .ok (.text "task") := rfl
  rw [hfield] at htask
  cases htask
  rfl

/-- A run goes on from the wait with the decision, and the tokens read the task and its outcome. -/
theorem authored_id_reads_deciding : (deciding "ask").compile = .ok (decided "ask") ∧
    ∃ created waited, Run.Comes Run.silent decidedSetup approvedBefore 2 created ∧
      Run.Goes Run.silent decidedSetup (2, created) (3, waited) ∧
      Template.render (Template.token (Variables.pathIn "ask" "taskId")) waited.vars = "task" ∧
      Template.render (Template.token (Variables.pathIn "ask" "outcome")) waited.vars =
        "approved" := by
  have hcompile : (deciding "ask").compile = .ok (decided "ask") := by
    with_unfolding_all exact rfl
  obtain ⟨action, i, hauthors, hkind, hid, hi, hsame⟩ : ∃ action i,
      (deciding "ask").Authors (decided "ask") action i ∧ action.kind = "create_task" ∧
        action.id = "ask" ∧ (decided "ask")[1]? = some i ∧ i.id = "ask" :=
    ⟨_, _, List.mem_singleton.2 rfl, rfl, rfl, rfl, rfl⟩
  have hclean : StepId.IsClean "ask" := ⟨⟨by decide, List.all_eq_true.1 (by decide)⟩, by decide⟩
  obtain ⟨-, -, hreads⟩ := authored_id_reads hcompile hauthors hkind (hid ▸ hclean)
  rw [hid] at hreads
  have htable : Walk.gotoTable decidedSetup.steps = .ok decidedSetup.table :=
    Walk.gotoTable_toJson ..
  -- Both tokens read what they should in every run; what follows is the one that goes on.
  obtain ⟨htaskId, hdecision⟩ :=
    hreads hsame 1 hi Run.silent namesTasks_silent decidedSetup rfl htable
  obtain ⟨started, created, waited, hstart, hcreate, hwait, happroval⟩ : ∃ started created waited,
      Run.Goes Run.silent decidedSetup (0, approvedBefore) (1, started) ∧
        Run.Goes Run.silent decidedSetup (1, started) (2, created) ∧
          Run.Goes Run.silent decidedSetup (2, created) (3, waited) ∧
            waited.inbox.approval? (.text "task") = some ⟨[("outcome", .text "approved"),
              ("comment", .text "fine"), ("approvedBy", .text "ann")]⟩ :=
    ⟨_, _, _, ⟨_, _, rfl, rfl, rfl, rfl⟩, ⟨_, _, rfl, rfl, rfl, rfl⟩,
      ⟨_, _, rfl, rfl, rfl, rfl⟩, rfl⟩
  have hcomes : Run.Comes Run.silent decidedSetup approvedBefore 2 created :=
    .tail (.single hstart) hcreate
  refine ⟨hcompile, created, waited, hcomes, hwait, ?_, ?_⟩
  · obtain ⟨task, -, hcreates, hread⟩ := htaskId _ _ hcreate
    rw [eq_task_of_creates hcreates] at hread
    exact hread (3, waited) (.single hwait)
  · obtain ⟨task, -, ⟨_, _, -, -, hcreates, -⟩, hread⟩ := hdecision 2 _ 7 rfl rfl _ _ _ hcomes hwait
    rw [eq_task_of_creates hcreates] at hread
    exact hread _ happroval rfl (3, waited) .refl

/-- A definition with two tasks. The id of the first one, sanitized, is that of the second one. -/
def colliding : Definition where
  id := "intake"
  name := "Intake"
  description := none
  trigger := ⟨.manual, none⟩
  contactRequired := false
  statuses := [⟨"open", "Open", .whole 1, none⟩]
  vars := []
  phases := []
  steps := [.standard ⟨"forms", "Forms", none⟩
    [⟨"intake form", "create_task",
        ⟨[("assignTo", .obj [("type", .text "role"), ("role", .text "agent")])]⟩⟩,
      ⟨"intake_form", "create_task",
        ⟨[("assignTo", .obj [("type", .text "role"), ("role", .text "agent")])]⟩⟩]
    ⟨"automatic", .empty⟩]

theorem bases_colliding : ∃ plan, Plan.ofDefinition colliding = .ok plan ∧
    plan.bases = ["trigger_start", "intake form", "intake_form", "workflow_end"] :=
  ⟨_, rfl, rfl⟩

/-- The second task is created under another id than that of its action, since its id has been
handed out to the first one. -/
theorem not_all_authored_ids_kept :
    ¬ ∀ (d : Definition) (p : Program) (action : Action) (i : Instruction), d.compile = .ok p →
      d.Authors p action i → action.kind = "create_task" → StepId.IsClean action.id →
      i.id = action.id := by
  intro h
  obtain ⟨plan, hplan, hcompile⟩ := compile_of_issues_eq_nil (d := colliding) (by decide)
  obtain ⟨action, haction, hkind, hid⟩ : ∃ action ∈ colliding.actions,
      action.kind = "create_task" ∧ action.id = "intake_form" :=
    ⟨_, List.mem_cons_of_mem _ List.mem_cons_self, rfl, rfl⟩
  obtain ⟨i, hauthors⟩ := exists_authored hcompile haction
  have hintake : StepId.IsClean "intake_form" :=
    ⟨⟨by decide, List.all_eq_true.1 (by decide)⟩, by decide⟩
  have hclean : StepId.IsClean action.id := hid ▸ hintake
  have hkept := h _ _ action i hcompile hauthors hkind hclean
  obtain ⟨other, before, after, hother, -, hbases, hnamed⟩ :=
    hauthors.exists_named hcompile hclean.isId.1
  obtain ⟨named, hsame, hsuggested⟩ := bases_colliding
  rw [hother, Except.ok.injEq] at hsame
  rw [← hsame, hbases, hid] at hsuggested
  have hfirst : "intake form" ∈ before := by
    match before with
    | [] | [_] => simp at hsuggested
    | _ :: second :: _ => simp_all
  have hfree := (hclean.fresh_eq_self_iff before).1 (hnamed ▸ hkept) _ hfirst
  rw [hid] at hfree
  exact hfree (by decide)

end Definition
end Casework
