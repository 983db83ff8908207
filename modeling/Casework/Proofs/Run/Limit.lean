/-
  Casework.Proofs.Run.Limit

  Runs are bounded, and the bound is exact. A run goes from place to place until it stops: past the
  last step, at a step that ends it, or at a failure. Programs can lead in circles, so nothing but
  the number of steps ends every run. A run of at most as many steps as the limit does what it would
  do without one; a run that would go on after so many steps fails, and no other run fails so. The
  program of a definition only leads forward, so a run of it takes no more steps than there are
  instructions.
-/
import Casework.Proofs.Run.TaskToken

namespace Casework

variable {σ : Type}

/-- What a step can meet with is not the limit. -/
theorem Failure.IsMet.ne_exceeded {f : Failure} (h : f.IsMet) : f ≠ Run.exceeded := by
  rintro rfl
  exact h

namespace Run

-- ============================================================================
-- What steps leave as it is
-- ============================================================================

section Counting

variable (world : World σ)

/-- What is said of the number of steps endures. Nothing that a step does fails as if there were too
many. -/
theorem enduring_count (inv : Nat → Prop) :
    Enduring world (fun _ => True) (fun _ => True) (fun _ => True) (fun s => inv s.stepsRun)
      fun f s => f ≠ exceeded ∧ inv s.stepsRun :=
  (enduring_seen world (fun _ => inv) fun _ _ _ _ _ h => h).mono fun _ _ h => ⟨h.1.ne_exceeded, h.2⟩

/-- A wait without a task fails in another way than by the limit. -/
theorem orphaned_ne_exceeded (step creator : Json) : orphaned step creator ≠ exceeded :=
  fun h => attended_exceeded step creator h.symm

/-- To carry out a step counts no step, and does not fail by the limit. -/
theorem execute_count (inv : Nat → Prop) (base : Base) (contact statuses step : Json) :
    Ensures (execute world base contact statuses step) (fun s => inv s.stepsRun)
      (Stepped (fun s => inv s.stepsRun) (fun s => inv s.stepsRun)
        fun f s => f ≠ exceeded ∧ inv s.stepsRun) := by
  have henduring := enduring_count world inv
  refine henduring.execute contact statuses (fun _ => trivial) (fun _ _ _ => trivial)
    (fun _ _ _ => trivial) fun _ => ?_
  exact henduring.awaitTask trivial (fun _ _ _ _ => trivial)
    (fun creator _ s hs _ => ⟨orphaned_ne_exceeded _ creator, hs⟩)
    fun task => henduring.timeOut (fun _ _ _ _ _ => trivial) task

/-- Carrying out a step does not change how many have been begun. -/
theorem stepsRun_execute (base : Base) (contact statuses step : Json) (s : RunState σ) :
    (outcome (execute world base contact statuses step) s).2.stepsRun = s.stepsRun := by
  have hafter := execute_count world (· = s.stepsRun) base contact statuses step s rfl
  rcases hexecute : outcome (execute world base contact statuses step) s with ⟨result, s'⟩
  rw [hexecute] at hafter
  match result with
  | .ok true => exact hafter
  | .ok false => exact hafter
  | .error f => exact hafter.2

/-- No single step fails by the limit. -/
theorem execute_ne_exceeded {base : Base} {contact statuses step : Json}
    {s s' : RunState σ} {f : Failure}
    (h : outcome (execute world base contact statuses step) s = (.error f, s')) : f ≠ exceeded := by
  have hafter := execute_count world (fun _ => True) base contact statuses step s trivial
  rw [h] at hafter
  exact hafter.1

end Counting

-- ============================================================================
-- Ways and their ends
-- ============================================================================

/-- A run comes from one place to another one in so many steps. -/
inductive Takes (world : World σ) (s : Setup) :
    Nat → Nat × RunState σ → Nat × RunState σ → Prop where
  | none (here : Nat × RunState σ) : Takes world s 0 here here
  | step {n : Nat} {here between there : Nat × RunState σ} (hgoes : Goes world s here between)
      (h : Takes world s n between there) : Takes world s (n + 1) here there

/-- A run stops at a place, with one more step or none: it is past the last step, the step has no
id, the step ends the run or fails, or it leads nowhere. -/
inductive Stops (world : World σ) (s : Setup) :
    Nat × RunState σ → Nat → Except Failure Bool → RunState σ → Prop where
  | past {place : Nat} {r : RunState σ} (hpast : s.steps[place]? = none) :
      Stops world s (place, r) 0 (.ok false) r
  | unnamed {place : Nat} {r : RunState σ} {step : Json} {f : Fault}
    (hstep : s.steps[place]? = some step)
      (hid : step.requiredField "id" = .error f) : Stops world s (place, r) 1 (.error (.fault f)) r
  | ended {place : Nat} {r last : RunState σ} {step id : Json} (hstep : s.steps[place]? = some step)
      (hid : step.requiredField "id" = .ok id)
      (hexecute : outcome (execute world s.base s.contact s.statuses step) (entering id r) =
        (.ok true, last)) : Stops world s (place, r) 1 (.ok true) last
  | failed {place : Nat} {r last : RunState σ} {step id : Json} {f : Failure}
      (hstep : s.steps[place]? = some step) (hid : step.requiredField "id" = .ok id)
      (hexecute : outcome (execute world s.base s.contact s.statuses step) (entering id r) =
        (.error f, last)) : Stops world s (place, r) 1 (.error f) last
  | lost {place : Nat} {r last : RunState σ} {step id : Json} {f : Fault}
      (hstep : s.steps[place]? = some step) (hid : step.requiredField "id" = .ok id)
      (hexecute : outcome (execute world s.base s.contact s.statuses step) (entering id r) =
        (.ok false, last))
      (hnext : Walk.next step place s.table last.vars = .error f) :
      Stops world s (place, r) 1 (.error (.fault f)) last

/-- A run that is at a place stops after so many steps. -/
def StopsAfter (world : World σ) (s : Setup) (here : Nat × RunState σ) (count : Nat)
    (result : Except Failure Bool) (last : RunState σ) : Prop :=
  ∃ n there more, Takes world s n here there ∧ Stops world s there more result last ∧
    count = n + more

/-- A run that is at a place would go on with another step after so many. -/
def GoesOnAfter (world : World σ) (s : Setup) (here : Nat × RunState σ) (count : Nat)
    (last : RunState σ) : Prop :=
  ∃ place, Takes world s count here (place, last) ∧ place < s.steps.length

section Ways

variable {world : World σ} {s : Setup}

variable (world s) in
/-- A run goes on from a place, or it stops there. -/
theorem goes_or_stops (here : Nat × RunState σ) :
    (∃ there, Goes world s here there) ∨ ∃ more result last,
      Stops world s here more result last := by
  obtain ⟨place, r⟩ := here
  cases hstep : s.steps[place]? with
  | none => exact .inr ⟨0, _, _, .past hstep⟩
  | some step =>
    -- In the order in which the loop goes: the id of the step, its execution, and the next place.
    cases hid : step.requiredField "id" with
    | error f => exact .inr ⟨1, _, _, .unnamed hstep hid⟩
    | ok id =>
      rcases hexecute : outcome (execute world s.base s.contact s.statuses step)
        (entering id r) with
        ⟨result, last⟩
      match result with
      | .error f => exact .inr ⟨1, _, _, .failed hstep hid hexecute⟩
      | .ok true => exact .inr ⟨1, _, _, .ended hstep hid hexecute⟩
      | .ok false =>
        cases hnext : Walk.next step place s.table last.vars with
        | error f => exact .inr ⟨1, _, _, .lost hstep hid hexecute hnext⟩
        | ok following => exact .inl ⟨(following, last), step, id, hstep, hid, hexecute, hnext⟩

/-- Stopping takes one step at most, which is counted. -/
theorem Stops.count_le {here : Nat × RunState σ} {more : Nat} {result : Except Failure Bool}
    {last : RunState σ} (h : Stops world s here more result last) :
    more ≤ 1 ∧ last.stepsRun ≤ here.2.stepsRun + more := by
  have hexecuted : ∀ {step id : Json} {r : RunState σ} {result : Except Failure Bool}
    {last : RunState σ},
      outcome (execute world s.base s.contact s.statuses step) (entering id r) = (result, last) →
        last.stepsRun = r.stepsRun + 1 := by
    intro step id r result last hexecute
    have hcount := stepsRun_execute world s.base s.contact s.statuses step (entering id r)
    rwa [hexecute] at hcount
  cases h with
  | past => exact ⟨Nat.zero_le 1, Nat.le_refl _⟩
  | unnamed => exact ⟨Nat.le_refl 1, Nat.le_succ _⟩
  | ended _ _ hexecute => exact ⟨Nat.le_refl 1, (hexecuted hexecute).le⟩
  | failed _ _ hexecute => exact ⟨Nat.le_refl 1, (hexecuted hexecute).le⟩
  | lost _ _ hexecute => exact ⟨Nat.le_refl 1, (hexecuted hexecute).le⟩

/-- A run that stops by itself does not fail as if there were too many steps. -/
theorem Stops.ne_exceeded {here : Nat × RunState σ} {more : Nat} {result : Except Failure Bool}
    {last : RunState σ} (h : Stops world s here more result last) : result ≠ .error exceeded := by
  intro hexceeded
  cases h with
  | past => cases hexceeded
  | unnamed => cases hexceeded
  | ended => cases hexceeded
  | failed _ _ hexecute => exact execute_ne_exceeded world hexecute (Except.error.inj hexceeded)
  | lost => cases hexceeded

/-- A run that stops at a place is carried out so if there may be one more step. -/
theorem Stops.outcome_eq {here : Nat × RunState σ} {more : Nat} {result : Except Failure Bool}
    {last : RunState σ} (h : Stops world s here more result last) (left : Nat) :
    outcome (interpret world s.base s.contact s.statuses s.steps s.table (left + 1) here.1) here.2 =
      (result, last) := by
  cases h with
  | past hpast =>
    rw [interpret, hpast]
    rfl
  | unnamed hstep hid =>
    rw [interpret, hstep]
    dsimp only
    rw [hid]
    rfl
  | ended hstep hid hexecute => rw [outcome_interpret_succ hstep hid, hexecute]
  | failed hstep hid hexecute => rw [outcome_interpret_succ hstep hid, hexecute]
  | lost hstep hid hexecute hnext =>
    rw [outcome_interpret_succ hstep hid, hexecute]
    dsimp only
    rw [hnext]

/-- To go on for some steps uses up as many of those that are left. -/
theorem Takes.outcome_eq {n : Nat} {here there : Nat × RunState σ} (h : Takes world s n here there)
    (left : Nat) :
    outcome (interpret world s.base s.contact s.statuses s.steps s.table (left + n) here.1) here.2 =
      outcome (interpret world s.base s.contact s.statuses s.steps s.table left there.1)
        there.2 := by
  induction h with
  | none => rfl
  | step hgoes _ ih => rw [← ih, ← Nat.add_assoc, hgoes.outcome_eq]

/-- The steps on a way are counted. -/
theorem Takes.stepsRun_eq {n : Nat} {here there : Nat × RunState σ}
    (h : Takes world s n here there) :
    there.2.stepsRun = here.2.stepsRun + n := by
  induction h with
  | none => rfl
  | @step n here between there hgoes _ ih =>
    obtain ⟨step, id, -, -, hexecute, -⟩ := hgoes
    have hcount := stepsRun_execute world s.base s.contact s.statuses step (entering id here.2)
    rw [hexecute] at hcount
    calc there.2.stepsRun = between.2.stepsRun + n := ih
      _ = here.2.stepsRun + 1 + n := by
        rw [show between.2.stepsRun = here.2.stepsRun + 1 from hcount]
      _ = here.2.stepsRun + (n + 1) := by omega

-- ============================================================================
-- The interpreter
-- ============================================================================

/-- With no steps left the loop fails by the limit, if there is a step to go on with. -/
theorem outcome_interpret_zero {here : Nat × RunState σ} (h : here.1 < s.steps.length) :
    outcome (interpret world s.base s.contact s.statuses s.steps s.table 0 here.1) here.2 =
      (.error exceeded, here.2) := by
  rw [interpret, List.getElem?_eq_getElem h]
  rfl

variable (world s) in
/-- Within a number of steps a run stops by itself, or it would go on after them and fails. -/
theorem interpret_cases (left : Nat) (here : Nat × RunState σ) :
    (∃ count ≤ left, ∃ result last, StopsAfter world s here count result last ∧
      outcome (interpret world s.base s.contact s.statuses s.steps s.table left here.1) here.2 =
        (result, last)) ∨
    ∃ last, GoesOnAfter world s here left last ∧
      outcome (interpret world s.base s.contact s.statuses s.steps s.table left here.1) here.2 =
        (.error exceeded, last) := by
  induction left generalizing here with
  -- No step is left: either the walk is past the last step, or it would go on.
  | zero =>
    cases hstep : s.steps[here.1]? with
    | none =>
      refine .inl ⟨0, Nat.le_refl 0, _, _, ⟨0, here, 0, .none here, .past hstep, rfl⟩, ?_⟩
      rw [interpret, hstep]
      rfl
    | some step =>
      obtain ⟨hlt, -⟩ := List.getElem?_eq_some_iff.1 hstep
      exact .inr ⟨here.2, ⟨here.1, .none here, hlt⟩, outcome_interpret_zero hlt⟩
  -- One step, and by induction what comes behind it.
  | succ left ih =>
    rcases goes_or_stops world s here with ⟨there, hgoes⟩ | ⟨more, result, last, hstops⟩
    -- The loop goes on from there.
    · rw [hgoes.outcome_eq]
      rcases ih there with ⟨count, hcount, result, last,
        ⟨n, stop, more, htakes, hstops, rfl⟩, houtcome⟩ |
        ⟨last, ⟨place, htakes, hlt⟩, houtcome⟩
      · exact .inl ⟨n + 1 + more, by omega, result, last,
          ⟨n + 1, stop, more, .step hgoes htakes, hstops, rfl⟩, houtcome⟩
      · exact .inr ⟨last, ⟨place, .step hgoes htakes, hlt⟩, houtcome⟩
    -- The loop stops here, after one more step at most.
    · refine .inl ⟨more, ?_, result, last,
        ⟨0, here, more, .none here, hstops, (Nat.zero_add more).symm⟩,
        hstops.outcome_eq left⟩
      exact hstops.count_le.1.trans (Nat.le_add_left 1 left)

/-- The interpreter fails for too many steps exactly if the run would go on after as many as there
may be. -/
theorem interpret_exceeds_iff (left : Nat) (here : Nat × RunState σ) (last : RunState σ) :
    outcome (interpret world s.base s.contact s.statuses s.steps s.table left here.1) here.2 =
        (.error exceeded, last) ↔ GoesOnAfter world s here left last := by
  constructor
  · intro hexceeded
    rcases interpret_cases world s left here with
      ⟨_, -, result, other, ⟨_, _, _, -, hstops, -⟩, houtcome⟩ | ⟨other, hgoes, houtcome⟩
    · rw [houtcome] at hexceeded
      exact absurd (congrArg Prod.fst hexceeded) hstops.ne_exceeded
    · rw [houtcome] at hexceeded
      cases hexceeded
      exact hgoes
  · rintro ⟨place, htakes, hlt⟩
    have houtcome := htakes.outcome_eq 0
    rw [Nat.zero_add] at houtcome
    rw [houtcome, outcome_interpret_zero hlt]

variable (world s) in
/-- The interpreter counts no more steps than there may be. -/
theorem stepsRun_interpret_le (left : Nat) (here : Nat × RunState σ) :
    (outcome (interpret world s.base s.contact s.statuses s.steps s.table left here.1)
      here.2).2.stepsRun ≤
      here.2.stepsRun + left := by
  rcases interpret_cases world s left here with
    ⟨_, hle, result, last, ⟨n, there, more, htakes, hstops, rfl⟩, houtcome⟩ |
    ⟨last, ⟨place, htakes, -⟩, houtcome⟩
  · have hbefore := htakes.stepsRun_eq
    have hafter := hstops.count_le.2
    rw [houtcome]
    dsimp only
    omega
  · rw [houtcome]
    exact htakes.stepsRun_eq.le

end Ways

-- ============================================================================
-- Programs of definitions
-- ============================================================================

section Forward

variable {world : World σ} {s : Setup} {p : Program}
  (hsteps : s.steps = p.map Instruction.toJson) (hplaces : Places p s.table)
  (hlinked : p.LinkedFrom 0 p)

include hsteps hplaces hlinked

/-- A run that only goes forward has come as far as the number of its steps at least. -/
theorem Takes.add_le {n : Nat} {here there : Nat × RunState σ} (h : Takes world s n here there) :
    here.1 + n ≤ there.1 := by
  induction h with
  | none => exact Nat.le_refl _
  | step hgoes _ ih =>
    have hforward := hgoes.lt hsteps hplaces hlinked
    omega

/-- With as many steps as instructions, a run is past the last one. -/
theorem not_goesOnAfter_of_length_le {count : Nat} (hlength : p.length ≤ count)
    (started last : RunState σ) : ¬ GoesOnAfter world s (0, started) count last := by
  rintro ⟨place, htakes, hlt⟩
  have hfar : 0 + count ≤ place := htakes.add_le hsteps hplaces hlinked
  rw [hsteps, List.length_map] at hlt
  omega

end Forward

-- ============================================================================
-- Whole runs
-- ============================================================================

theorem endsWith_any (base : Base) (statuses : Json) : EndsWith (fun _ => True) base statuses :=
  fun _ _ _ _ _ => trivial

section Whole

variable (world : World σ) (s : Setup) (started : RunState σ)

/-- Setting up counts no step, and does not fail for too many. -/
theorem setup_count (world : World σ) (params : Fields) (begun : RunState σ) :
    (outcome (setup params) begun).2.stepsRun = begun.stepsRun ∧
      ∀ f, (outcome (setup params) begun).1 = .error f → f ≠ exceeded := by
  have henduring := enduring_count world (· = begun.stepsRun)
  have hsetup : Ensures (setup params) (fun r => r.stepsRun = begun.stepsRun) _ :=
    henduring.setup fun _ _ hr => hr
  have hafter := hsetup begun rfl
  rcases houtcome : outcome (setup params) begun with ⟨result, after⟩
  rw [houtcome] at hafter
  cases result with
  | ok _ => exact ⟨hafter.2, fun _ h => by cases h⟩
  | error f =>
    refine ⟨hafter.2, fun _ h => ?_⟩
    cases h
    exact hafter.1

/-- The report of a failure does not fail for too many steps. -/
theorem reportFailure_ne_exceeded (base : Base) (statuses : Json) (failure : Failure)
    (r : RunState σ) :
    (outcome (reportFailure world base statuses failure) r).1 ≠ .error exceeded := by
  intro hexceeded
  have henduring := enduring_count world fun _ => True
  have hafter := henduring.reportFailure (endsWith_any base statuses) failure r trivial
  rw [hexceeded] at hafter
  exact hafter.1 rfl

/-- Around its steps, a run counts none. -/
theorem stepsRun_carryOut_le :
    (outcome (carryOut world s) started).2.stepsRun ≤ started.stepsRun + stepLimit := by
  -- Of a failure nothing is kept but the count.
  have hbad : ∀ (f : Failure) (r : RunState σ),
      f ≠ exceeded ∧ r.stepsRun ≤ started.stepsRun + stepLimit →
        True ∧ r.stepsRun ≤ started.stepsRun + stepLimit := fun _ _ hr => ⟨trivial, hr.2⟩
  have henduring := (enduring_count world (· ≤ started.stepsRun + stepLimit)).mono hbad
  have hinterpreted : Ensures
    (interpret world s.base s.contact s.statuses s.steps s.table stepLimit 0)
      (· = started) (Stepped (fun r => r.stepsRun ≤ started.stepsRun + stepLimit)
        (fun r => r.stepsRun ≤ started.stepsRun + stepLimit)
        fun _ r => True ∧ r.stepsRun ≤ started.stepsRun + stepLimit) := by
    -- The loop counts one for each step that it takes, and takes no more than the limit.
    intro r hr
    subst hr
    have hcount := stepsRun_interpret_le world s stepLimit (0, r)
    match (outcome (interpret world s.base s.contact s.statuses s.steps s.table stepLimit 0)
      r).1 with
    | .ok true => exact hcount
    | .ok false => exact hcount
    | .error f => exact ⟨trivial, hcount⟩
  -- What comes before and behind the loop counts no step.
  have hcarried := henduring.carriedOut (endsWith_any s.base s.statuses) hinterpreted started rfl
  rcases houtcome : outcome (carryOut world s) started with ⟨result, last⟩
  rw [houtcome] at hcarried
  cases result with
  | ok _ => exact hcarried
  | error f => exact hcarried.2

variable {world s started}

/-- A run that would go on after as many steps as there may be reports that, and fails with it or
with the failure of the report. -/
theorem outcome_carryOut_of_goesOn {last : RunState σ}
    (h : GoesOnAfter world s (0, started) stepLimit last) :
    (outcome (carryOut world s) started).1 =
      match (outcome (reportFailure world s.base s.statuses exceeded) last).1 with
      | .ok _ => .error exceeded
      | .error f => .error f := by
  have hinterpreted := (interpret_exceeds_iff stepLimit (0, started) last).2 h
  have hbody : outcome (body world s) started = (.error exceeded, last) := by
    rw [body, outcome_bind, hinterpreted]
  rw [carryOut, outcome_tryCatch, hbody]
  dsimp only
  rw [outcome_bind]
  rcases outcome (reportFailure world s.base s.statuses exceeded) last with ⟨result, reported⟩
  cases result <;> rfl

/-- A run that stops by itself, in time, does not fail for too many steps. -/
theorem carryOut_ne_exceeded (h : ∀ last, ¬ GoesOnAfter world s (0, started) stepLimit last) :
    (outcome (carryOut world s) started).1 ≠ .error exceeded := by
  have henduring := enduring_count world fun _ => True
  have hinterpreted : Ensures
    (interpret world s.base s.contact s.statuses s.steps s.table stepLimit 0)
      (· = started) (Stepped (fun _ => True) (fun _ => True) fun f _ => f ≠ exceeded ∧ True) := by
    intro r hr
    subst hr
    rcases houtcome : outcome
      (interpret world s.base s.contact s.statuses s.steps s.table stepLimit 0) r
      with ⟨result, last⟩
    match result with
    | .ok true => trivial
    | .ok false => trivial
    | .error f =>
      refine ⟨fun hexceeded => ?_, trivial⟩
      rw [hexceeded] at houtcome
      -- The loop fails by the limit only if it would go on after the last step.
      exact h last ((interpret_exceeds_iff stepLimit (0, r) last).1 houtcome)
  have hcarried := henduring.carriedOut (endsWith_any s.base s.statuses) hinterpreted started rfl
  intro hexceeded
  rw [hexceeded] at hcarried
  exact hcarried.1 rfl

end Whole

-- ============================================================================
-- The limit
-- ============================================================================

/-- How a run with a program that is ready keeps to the limit. -/
structure KeepsLimit (world : World σ) (s : Setup) (started : RunState σ)
    (result : Except Failure Json) : Prop where
  /-- The run stops by itself within the limit, as it would without one, or it would go on
  beyond. -/
  ends :
    (∃ count ≤ stepLimit, ∃ stopped last, StopsAfter world s (0, started) count stopped last ∧
      outcome (interpret world s.base s.contact s.statuses s.steps s.table stepLimit 0) started =
        (stopped, last)) ∨
    ∃ last, GoesOnAfter world s (0, started) stepLimit last
  /-- Its steps fail for being too many exactly if it would go on beyond. -/
  exceeds : ∀ last,
    outcome (interpret world s.base s.contact s.statuses s.steps s.table stepLimit 0) started =
      (.error exceeded, last) ↔ GoesOnAfter world s (0, started) stepLimit last
  /-- It ends with this failure exactly if it could also be reported. -/
  fails : result = .error exceeded ↔ ∃ last, GoesOnAfter world s (0, started) stepLimit last ∧
    (outcome (reportFailure world s.base s.statuses exceeded) last).1 = .ok ()
  /-- If the report fails, it ends with the failure of the report. -/
  reports : ∀ last, GoesOnAfter world s (0, started) stepLimit last → ∀ f,
    (outcome (reportFailure world s.base s.statuses exceeded) last).1 = .error f → result = .error f

/-- A run that is carried out keeps to the limit. -/
theorem keepsLimit (world : World σ) (s : Setup) (started : RunState σ) :
    KeepsLimit world s started (outcome (carryOut world s) started).1 where
  ends := by
    rcases interpret_cases world s stepLimit (0, started) with
      ⟨count, hcount, stopped, last, hstops, houtcome⟩ | ⟨last, hgoes, -⟩
    · exact .inl ⟨count, hcount, stopped, last, hstops, houtcome⟩
    · exact .inr ⟨last, hgoes⟩
  exceeds := interpret_exceeds_iff stepLimit (0, started)
  fails := by
    constructor
    -- The run fails by the limit, so the loop does, and telling of it succeeds: else the failure to
    -- tell would be what the run fails with.
    · intro hexceeded
      have hgoes : ∃ last, GoesOnAfter world s (0, started) stepLimit last := by
        by_contra hstops
        exact carryOut_ne_exceeded (not_exists.1 hstops) hexceeded
      obtain ⟨last, hgoes⟩ := hgoes
      refine ⟨last, hgoes, ?_⟩
      rw [outcome_carryOut_of_goesOn hgoes] at hexceeded
      cases hreported : (outcome (reportFailure world s.base s.statuses exceeded) last).1 with
      | ok _ => rfl
      | error f =>
        rw [hreported] at hexceeded
        cases Except.error.inj hexceeded
        exact absurd hreported (reportFailure_ne_exceeded world _ _ _ last)
    -- The other way round, a limit that was told of is what the run fails with.
    · rintro ⟨last, hgoes, hreported⟩
      rw [outcome_carryOut_of_goesOn hgoes, hreported]
  reports := by
    intro last hgoes f hreported
    rw [outcome_carryOut_of_goesOn hgoes, hreported]

/-- A run that has been set up for the program of a definition within the limit never goes on
beyond. -/
theorem not_goesOnAfter_of_compile (world : World σ) {d : Definition} {p : Program}
    (h : d.compile = .ok p) (hlength : p.length ≤ stepLimit) {params : Fields} {s : Setup}
    (hprepares : s.Prepares params)
    (hgiven : params.value "steps" = .list (p.map Instruction.toJson)) (started last : RunState σ) :
    ¬ GoesOnAfter world s (0, started) stepLimit last := by
  obtain ⟨table, htable, hplaces, hlinked⟩ := Definition.exists_linked h
  have hsteps : s.steps = p.map Instruction.toJson := by
    have hgot := hprepares.steps
    rw [hgiven, Json.givenItemsOf_list, Except.ok.injEq] at hgot
    exact hgot.symm
  have hgoto := hprepares.table
  rw [hsteps, htable, Except.ok.injEq] at hgoto
  exact not_goesOnAfter_of_length_le hsteps (hgoto ▸ hplaces) hlinked hlength started last

/-- Runs are bounded, and the bound is exact. A run, with messages that have come in before it
begins, counts at most as many steps as the limit and ends. It ends with what fails before its first
step; or it keeps to the limit. The program of a definition with at most as many instructions as the
limit never exceeds it. -/
theorem limit_exact (world : World σ) (params : Fields) (outside : σ) (inbox : Inbox) :
    let begun : RunState σ := { RunState.fresh outside with inbox }
    (outcome (run world params) begun).2.stepsRun ≤ stepLimit ∧
    (∀ f failed, outcome (setup params) begun = (.error f, failed) →
      f ≠ exceeded ∧ failed.stepsRun = 0 ∧ outcome (run world params) begun = (.error f, failed)) ∧
    (∀ s started, outcome (setup params) begun = (.ok s, started) →
      started.stepsRun = 0 ∧ KeepsLimit world s started (outcome (run world params) begun).1) ∧
    ∀ (d : Definition) (p : Program), d.compile = .ok p → p.length ≤ stepLimit →
      params.value "steps" = .list (p.map Instruction.toJson) →
        (outcome (run world params) begun).1 ≠ .error exceeded ∧
        ∀ s started, outcome (setup params) begun = (.ok s, started) →
          ∀ last, ¬ GoesOnAfter world s (0, started) stepLimit last := by
  intro begun
  obtain ⟨hcount, hfails⟩ := setup_count world params begun
  rcases hsetup : outcome (setup params) begun with ⟨result, after⟩
  rw [hsetup] at hcount hfails
  cases result with
  -- The setup fails, before any step.
  | error f =>
    have hrun : outcome (run world params) begun = (.error f, after) := by
      rw [run, outcome_bind, hsetup]
    refine ⟨?_, ?_, ?_, ?_⟩
    · rw [hrun]
      exact hcount.le.trans (Nat.zero_le _)
    · rintro _ _ h
      cases h
      exact ⟨hfails f rfl, hcount, hrun⟩
    · rintro _ _ h
      cases h
    · refine fun _ _ _ _ _ => ⟨fun h => ?_, fun _ _ h => by cases h⟩
      rw [hrun] at h
      exact hfails f rfl (Except.error.inj h)
  -- The setup succeeds, and the run is carried out from there.
  | ok s =>
    have hkeeps := keepsLimit world s after
    have hbound := stepsRun_carryOut_le world s after
    rw [hcount] at hbound
    rw [outcome_run hsetup]
    refine ⟨hbound.trans_eq (Nat.zero_add _), ?_, ?_, ?_⟩
    · rintro _ _ h
      cases h
    · rintro _ _ h
      cases h
      exact ⟨hcount, hkeeps⟩
    -- A compiled program leads forward only, so no step beyond its length would follow.
    · intro d p hcompile hlength hgiven
      obtain ⟨hprepares, -⟩ := setup_eq_ok hsetup
      have hnever := not_goesOnAfter_of_compile world hcompile hlength hprepares hgiven after
      refine ⟨fun hexceeded => ?_, ?_⟩
      · obtain ⟨last, hgoes, -⟩ := hkeeps.fails.1 hexceeded
        exact hnever last hgoes
      · rintro _ _ h
        cases h
        exact hnever

/-- A step that leads to itself. -/
def circling : List Json := [
  .obj [("id", .text "loop"), ("type", .text "condition"),
    ("config", .obj [("defaultGotoStepId", .text "loop")])]]

/-- A world in which no report gets through. -/
def unreached : World Unit where
  perform call _ :=
    (if call.activity = .setState then .error (.application "down" false) else .ok .null, ())
  deliver _ := ([], ())

/-- A run of `circling`, set up. -/
def circlingSetup : Setup where
  base := ⟨.text "execution", .text "org"⟩
  contact := .null
  statuses := .texts ["open"]
  steps := circling
  table := [(.text "loop", 0)]

/-- The circling program takes as many steps as one likes, and is back at its beginning. -/
theorem exists_takes_circling (n : Nat) (r : RunState Unit) :
    ∃ r', Takes unreached circlingSetup n (0, r) (0, r') := by
  induction n generalizing r with
  | zero => exact ⟨r, .none _⟩
  | succ n ih =>
    obtain ⟨r', htakes⟩ := ih (entering (.text "loop") r)
    exact ⟨r', .step ⟨_, _, rfl, rfl, rfl, rfl⟩ htakes⟩

/-- A run goes in circles without end, but it does not fail for that: it fails because this cannot
be reported. -/
theorem not_all_exceeding_runs_tell :
    ¬ ∀ (world : World Unit) (params : Fields) (s : Setup) (started : RunState Unit),
      outcome (setup params) (.fresh ()) = (.ok s, started) →
        ((outcome (run world params) (.fresh ())).1 = .error exceeded ↔
          ∃ last, GoesOnAfter world s (0, started) stepLimit last) := by
  intro h
  obtain ⟨started, hsetup⟩ : ∃ started,
      outcome (setup (paramsOf (.texts ["open"]) circling)) (.fresh ()) =
        (.ok circlingSetup, started) :=
    ⟨_, rfl⟩
  obtain ⟨last, htakes⟩ := exists_takes_circling stepLimit started
  have hgoes : GoesOnAfter unreached circlingSetup (0, started) stepLimit last :=
    ⟨0, htakes, Nat.zero_lt_one⟩
  have hexceeded := (h unreached _ _ _ hsetup).2 ⟨last, hgoes⟩
  -- The activity that would tell of it cannot be reached.
  have hreport : (outcome (reportFailure unreached circlingSetup.base
    circlingSetup.statuses exceeded)
      last).1 = .error .activity := rfl
  rw [outcome_run hsetup, (keepsLimit unreached circlingSetup started).reports last hgoes _ hreport]
    at hexceeded
  cases hexceeded

end Run
end Casework
