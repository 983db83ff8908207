/-
  Casework.Proofs.Program.Origin

  Where the instructions of a program come from. Its steps are lowered to the instructions of the
  standard steps and to conditions: the instruction at any place among them is a condition, or
  stands among the instructions of one standard step, in the order in which that step has them.
-/
import Casework.Proofs.Definition.Standards
import Casework.Proofs.Program.WellFormed

namespace Casework

open Result

namespace Plan

variable {p : Program} {keys : Entries String} {ids : Naming}

/-- A standard step is lowered to the instructions of a stretch. -/
def LowersTo (p : Program) (keys : Entries String) (ids : Naming) (s : StandardStep)
    (start size : Nat) : Prop :=
  ∃ (works : List Action) (wait : Option Wait) (n : Nat),
    s.actions.mapM (actionOf keys) = .ok works ∧ waitOf s.advancement works = .ok wait ∧
      p.HasAt start (emitStandard ids n s.head works wait) ∧
      size = (Step.standard s.head works wait).size

/-- A standard step is lowered to the instructions around a place. -/
def Lowers (p : Program) (keys : Entries String) (ids : Naming) (s : StandardStep) (k : Nat) :
    Prop :=
  ∃ start size, LowersTo p keys ids s start size ∧ start ≤ k ∧ k < start + size

/-- The instruction at a place is a condition, or comes from a standard step. -/
def Comes (p : Program) (keys : Entries String) (ids : Naming) (standards : List StandardStep)
    (k : Nat) : Prop :=
  (∃ i, p[k]? = some i ∧ i.operation.word = "condition") ∨ ∃ s ∈ standards, Lowers p keys ids s k

/-- What comes from some standard steps comes from more of them. -/
theorem Comes.mono {standards more : List StandardStep} {k : Nat} (h : Comes p keys ids standards k)
    (hmore : ∀ s ∈ standards, s ∈ more) : Comes p keys ids more k := by
  rcases h with hcondition | ⟨s, hs, hlowers⟩
  · exact .inl hcondition
  · exact .inr ⟨s, hmore s hs, hlowers⟩

mutual

/-- The instructions of a step come from it. -/
theorem comes_emitStep {step : Casework.Step} {planned : Step} {n q : Nat} {follow : String}
    (hplanned : stepOf keys step = .ok planned) (hat : p.HasAt q (emitStep ids n follow planned))
    {k : Nat} (hfrom : q ≤ k) (hbelow : k < q + planned.size) :
    Comes p keys ids step.standards k := by
  cases step with
  | standard head actions advancement =>
    obtain ⟨works, wait, hworks, hwait, rfl⟩ := stepOf_standard_eq_ok hplanned
    rw [emitStep] at hat
    exact .inr ⟨_, List.mem_singleton.2 rfl, q, _, ⟨works, wait, n, hworks, hwait, hat, rfl⟩, hfrom,
      hbelow⟩
  | branch head condition tracks =>
    obtain ⟨field, comparison, guards, planned, -, -, htracks, rfl⟩ := stepOf_branch_eq_ok hplanned
    rw [emitStep] at hat
    rw [Step.size] at hbelow
    -- The branch itself and the merge are conditions; all else is in the tracks.
    have hmerge := hat.right.head
    rw [List.length_cons, length_emitTracks] at hmerge
    by_cases hfirst : k = q
    · exact .inl ⟨_, hfirst ▸ hat.left.head, rfl⟩
    · by_cases hlast : k = q + (tracksSize planned + 1)
      · exact .inl ⟨_, hlast ▸ hmerge, rfl⟩
      · exact comes_emitTracks htracks hat.left.tail (by omega) (by omega)

/-- Every instruction of some steps is a condition, or comes from one of their standard steps. -/
theorem comes_emitSteps {steps : List Casework.Step} {planned : List Step} {n q : Nat}
    {follow : String} (hplanned : stepsOf keys steps = .ok planned)
    (hat : p.HasAt q (emitSteps ids n follow planned)) {k : Nat} (hfrom : q ≤ k)
    (hbelow : k < q + stepsSize planned) : Comes p keys ids (stepsStandards steps) k := by
  match steps with
  | [] =>
    cases hplanned
    exact absurd hbelow (Nat.not_lt.2 hfrom)
  | step :: rest =>
    obtain ⟨first, more, hfirst, hmore, rfl⟩ := stepsOf_cons_eq_ok hplanned
    rw [emitSteps] at hat
    rw [stepsSize] at hbelow
    have hlast := hat.right
    rw [length_emitStep] at hlast
    by_cases hk : k < q + first.size
    · exact (comes_emitStep hfirst hat.left hfrom hk).mono fun s => List.mem_append_left _
    · exact (comes_emitSteps hmore hlast (by omega) (by omega)).mono fun s =>
        List.mem_append_right _

/-- Every instruction of some tracks is a condition, or comes from one of their standard steps. -/
theorem comes_emitTracks {tracks : List Casework.Track} {guards : List (Option String)}
    {planned : List Track} {head : StepHead} {n q : Nat} {merge : String}
    (hplanned : tracksOf keys guards tracks = .ok planned)
    (hat : p.HasAt q (emitTracks ids head merge n planned)) {k : Nat} (hfrom : q ≤ k)
    (hbelow : k < q + tracksSize planned) : Comes p keys ids (tracksStandards tracks) k := by
  match tracks with
  | [] =>
    cases hplanned
    exact absurd hbelow (Nat.not_lt.2 hfrom)
  | .mk id label steps :: rest =>
    obtain ⟨first, more, hfirst, -, hmore, rfl⟩ := tracksOf_cons_eq_ok hplanned
    rw [emitTracks] at hat
    rw [tracksSize] at hbelow
    have hskip := hat.left.right
    have hlast := hat.right
    rw [length_emitSteps] at hskip
    -- The place is in the first track, at its skip, or behind both.
    by_cases hk : k < q + stepsSize first
    · exact (comes_emitSteps hfirst hat.left.left hfrom hk).mono fun s => List.mem_append_left _
    · cases hskips : skips first more with
      | true =>
        rw [hskips, if_pos rfl] at hskip hlast hbelow
        rw [List.length_append, length_emitSteps, ← Nat.add_assoc] at hlast
        by_cases hjump : k = q + stepsSize first
        · exact .inl ⟨_, hjump ▸ hskip.head, rfl⟩
        · have hrest := comes_emitTracks hmore hlast (k := k)
            (by rw [List.length_singleton]; omega) (by rw [List.length_singleton]; omega)
          exact hrest.mono fun s => List.mem_append_right _
      | false =>
        rw [hskips, if_neg (by decide), List.append_nil, length_emitSteps] at hlast
        rw [hskips, if_neg (by decide), Nat.add_zero] at hbelow
        exact (comes_emitTracks hmore hlast (by omega) (by omega)).mono fun s =>
          List.mem_append_right _

end

/-- The instruction at a place of a program is its start or its end, or comes from its steps. -/
theorem comes_program (plan : Plan) {steps : List Casework.Step}
    (hplanned : stepsOf keys steps = .ok plan.steps) {k : Nat} {i : Instruction}
    (hi : plan.program[k]? = some i) :
    i.operation.word = "trigger" ∨
      Comes plan.program keys (namingOf plan.names) (stepsStandards steps) k := by
  obtain ⟨start, hstart, -, hprogram⟩ := plan.program_eq
  have hat := plan.program.hasAt_zero
  obtain ⟨hbelow, -⟩ := List.getElem?_eq_some_iff.1 hi
  rw [length_program] at hbelow
  rw [hprogram] at hat hi
  -- The first instruction and the last one are the ends of the program; between them are the steps.
  by_cases hfirst : k = 0
  · subst hfirst
    cases hi
    rw [hstart]
    exact .inl rfl
  · by_cases hlast : k = 1 + stepsSize plan.steps
    · have hending := hat.tail.right.head
      rw [length_emitSteps, Nat.zero_add, ← hlast, hi] at hending
      cases hending
      exact .inl rfl
    · rw [hprogram]
      exact .inr (comes_emitSteps hplanned hat.tail.left (by omega) (by omega))

-- ============================================================================
-- The instructions of a standard step
-- ============================================================================

section Standard

variable {s : StandardStep} {works : List Action} {n start : Nat} {i : Instruction}
  (hworks : s.actions.mapM (actionOf keys) = .ok works)

include hworks

/-- The instruction in the place of an action does what the action asks for. -/
theorem exists_action_of_lt {wait : Option Wait}
    (hat : p.HasAt start (emitStandard ids n s.head works wait)) {r : Nat} (hr : r < works.length)
    (hi : p[start + r]? = some i) :
    ∃ action ∈ s.actions, ∃ work, workOf keys action.kind action.config = .ok work ∧
      i.operation = .work work := by
  -- The actions stand first, so the place is that of one of them.
  obtain ⟨planned, hplanned⟩ : ∃ planned, works[r]? = some planned :=
    ⟨_, List.getElem?_eq_getElem hr⟩
  obtain ⟨action, haction, hasks⟩ :=
    exists_item_of_mapM_eq_ok hworks (List.mem_of_getElem? hplanned)
  obtain ⟨work, hwork, rfl⟩ := map_eq_ok_iff.1 hasks
  have hactions : p.HasAt start (emitActions ids s.head n works) := by
    cases wait with
    | some wait => exact hat.left
    | none =>
      rw [emitStandard, if_neg (by rintro hnone; simp [List.isEmpty_iff.1 hnone] at hr)] at hat
      exact hat
  have hplace := hactions.getElem? (getElem?_emitActions ids s.head n hplanned)
  rw [hi] at hplace
  cases hplace
  exact ⟨action, haction, work, hwork, rfl⟩

/-- The instruction behind the actions of a step that waits waits for a task that one of them
creates, for as many days as the task has, or seven, but a day at least. -/
theorem exists_creator_of_wait {wait : Wait} (hwait : waitOf s.advancement works = .ok (some wait))
    (hat : p.HasAt start (emitStandard ids n s.head works (some wait)))
    (hi : p[start + works.length]? = some i) :
    ∃ r creator task, r < works.length ∧ p[start + r]? = some creator ∧
      creator.operation = .work (.createTask task) ∧
      i.operation = .awaitTask creator.id (max (task.dueDays.getD defaultWaitDays) 1) := by
  have hplace := hat.right.head
  rw [length_emitActions, hi] at hplace
  cases hplace
  rcases waitOf_cases hworks hwait with
    ⟨-, hnone⟩ | ⟨id, action, position, task, -, -, -, -, hcreator, hsome⟩
  · cases hnone
  · cases hsome
    obtain ⟨hlt, -⟩ := List.getElem?_eq_some_iff.1 hcreator
    exact ⟨position, _, task, hlt, hat.left.getElem? (getElem?_emitActions ids s.head n hcreator),
      rfl, rfl⟩

end Standard

/-- An instruction of a standard step is a place to begin at, does what one of its actions asks for,
or waits for a task that an instruction before it creates, which stands in the same stretch. -/
theorem Lowers.cases {s : StandardStep} {k : Nat} (h : Lowers p keys ids s k) {i : Instruction}
    (hi : p[k]? = some i) :
    i.operation = .mark ∨
      (∃ action ∈ s.actions, ∃ work, workOf keys action.kind action.config = .ok work ∧
        i.operation = .work work) ∨
      ∃ m creator task, m < k ∧ p[m]? = some creator ∧
        creator.operation = .work (.createTask task) ∧
        i.operation = .awaitTask creator.id (max (task.dueDays.getD defaultWaitDays) 1) ∧
        ∃ start size, LowersTo p keys ids s start size ∧ start ≤ m ∧ k < start + size := by
  obtain ⟨start, size, hlowers, hfrom, hbelow⟩ := h
  have hstretch := hlowers
  obtain ⟨works, wait, n, hworks, hwait, hat, rfl⟩ := hstretch
  obtain ⟨r, rfl⟩ := Nat.exists_eq_add_of_le hfrom
  by_cases hr : r < works.length
  · exact .inr (.inl (exists_action_of_lt hworks hat hr hi))
  · cases wait with
    | none =>
      -- The step has no actions, but a place to begin at.
      rw [Step.size] at hbelow
      obtain ⟨rfl, hnone⟩ : r = 0 ∧ works.length = 0 := by omega
      obtain rfl := List.length_eq_zero_iff.1 hnone
      have hplace := hat.head
      rw [Nat.add_zero] at hi
      rw [hi] at hplace
      cases hplace
      exact .inl rfl
    | some wait =>
      have hlast : r = works.length := by
        rw [Step.size] at hbelow
        omega
      rw [hlast] at hi hbelow ⊢
      obtain ⟨position, creator, task, hposition, hcreator, hcreates, hawaits⟩ :=
        exists_creator_of_wait hworks hwait hat hi
      exact .inr (.inr ⟨start + position, creator, task, by omega, hcreator, hcreates, hawaits,
        start, _, hlowers, Nat.le_add_right .., hbelow⟩)

-- ============================================================================
-- Statuses
-- ============================================================================

/-- Only an action that sets the status asks for that work, with the status that it names. -/
theorem status_of_workOf {kind : String} {config : Fields} {status : String}
    (h : workOf keys kind config = .ok (.setStatus status)) :
    kind = "update_status" ∧ config.value "status" = .text status := by
  unfold workOf at h
  split at h
  -- Only the action that changes statuses gives this work, with the status that it names.
  case h_4 =>
    obtain ⟨named, hnamed, hsame⟩ := map_eq_ok_iff.1 h
    cases hsame
    obtain ⟨value, hvalue, hstatus⟩ := bind_eq_ok_iff.1 hnamed
    refine ⟨rfl, ?_⟩
    rw [Json.value_of_requiredField hvalue]
    cases value with
    | text s => cases hstatus; rfl
    | _ => cases hstatus
  case h_5 => cases h
  all_goals
    obtain ⟨_, -, hsame⟩ := map_eq_ok_iff.1 h
    cases hsame

end Plan

namespace Validation

/-- A status that an action without issues names is a declared one. -/
theorem declared_of_statusChangeIssues {scope : Scope} {s : Subject} {config : Fields}
    (hdeclared : scope.statusIds ≠ []) (h : statusChangeIssues scope s config = [])
    {status : String}
    (hstatus : config.value "status" = .text status) : status ∈ scope.statusIds := by
  have hnonempty : scope.statusIds.isEmpty = false := List.isEmpty_eq_false_iff.2 hdeclared
  rw [statusChangeIssues, hstatus] at h
  simp only [Json.isNull, Json.isText, Json.text?, Option.isSome_some, Bool.not_true,
    Bool.and_false,
    Bool.false_eq_true, if_false, hnonempty] at h
  by_contra hnot
  rw [if_neg (by simp [Json.isOneOf, Json.text?, hnot])] at h
  cases h

end Validation

namespace Definition

variable {d : Definition} {p : Program}

/-- A definition that compiles has no issues. -/
theorem issues_of_compile (h : d.compile = .ok p) : d.issues = [] := by
  rw [compile] at h
  split at h
  case isTrue hnone => exact List.isEmpty_iff.1 hnone
  case isFalse => cases h

/-- A status that the program of a definition sets is a declared one. -/
theorem declared_of_setStatus (h : d.compile = .ok p) {i : Instruction} (hi : i ∈ p)
    {status : String}
    (hset : i.operation = .work (.setStatus status)) : status ∈ d.statusIds := by
  have hissues := issues_of_compile h
  obtain ⟨steps, hplanned, rfl⟩ := exists_plan_of_compile h
  obtain ⟨k, hk⟩ := List.mem_iff_getElem?.1 hi
  rcases Plan.comes_program ⟨d.trigger, d.contactRequired, steps⟩ hplanned hk with
    htrigger | ⟨j, hj, hcondition⟩ | ⟨s, hs, hlowers⟩
  -- Neither an end of the program nor a condition sets a status, so the instruction comes from a
  -- standard step.
  · rw [hset] at htrigger
    exact absurd htrigger (by simp [Operation.word, Work.word])
  · rw [hk] at hj
    cases hj
    rw [hset] at hcondition
    exact absurd hcondition (by simp [Operation.word, Work.word])
  · rcases hlowers.cases hk with hmark | ⟨action, haction, work, hwork, hasks⟩ |
      ⟨_, _, _, -, -, -, hwaits, -⟩
    · rw [hset] at hmark
      cases hmark
    -- It stands for an action, which the check of status changes has let pass.
    · rw [hset] at hasks
      cases hasks
      obtain ⟨hkind, hstatus⟩ := Plan.status_of_workOf hwork
      obtain ⟨seen, place, hactions, -⟩ := passes_of_issues hissues s hs
      obtain ⟨seen', place', hfine⟩ := Plan.checkActions_eq_nil hactions action haction
      have hchange := (List.append_eq_nil_iff.1 hfine).2
      rw [hkind, if_pos (by decide), List.append_eq_nil_iff] at hchange
      rw [issues, List.append_eq_nil_iff, List.append_eq_nil_iff] at hissues
      exact Validation.declared_of_statusChangeIssues (Validation.statusIds_ne_nil hissues.1.1)
        hchange.1 hstatus
    · rw [hset] at hwaits
      cases hwaits

end Definition
end Casework
