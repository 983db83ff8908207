/-
  Casework.Proofs.Program.Wait

  Waits come behind the tasks that they wait for. The creation of a task and the wait for it come
  from one standard step, whose instructions stand one behind the other. Jumps lead to where parts
  begin, so there is one way only into the places between the two: from the creation on, place by
  place. A walk that reaches the wait has therefore been at the creation, whatever its variables
  were.
-/
import Casework.Proofs.Program.Origin
import Mathlib.Data.List.Chain

namespace Casework

-- ============================================================================
-- Walks
-- ============================================================================

/-- A walk can go from one place to another one: it does so with some variables. -/
def Walk.Follows (steps : List Json) (table : Table Nat) (a b : Nat) : Prop :=
  ∃ step vars, steps[a]? = some step ∧ next step a table vars = .ok b

theorem Program.exists_getElem?_of_map {p : Program} {k : Nat} {step : Json}
    (h : (p.map Instruction.toJson)[k]? = some step) : ∃ i, p[k]? = some i ∧ step = i.toJson := by
  rw [List.getElem?_map, Option.map_eq_some_iff] at h
  obtain ⟨i, hi, rfl⟩ := h
  exact ⟨i, hi, rfl⟩

/-- The instructions at two places with the same id are at the same place. -/
theorem Places.eq {p : Program} {table : Table Nat} (hplaces : Places p table) {k m : Nat}
    {i c : Instruction} (hi : p[k]? = some i) (hc : p[m]? = some c) (hid : i.id = c.id) :
    k = m := by
  have hk := hplaces k i hi
  rw [hid, hplaces m c hc] at hk
  exact (Option.some.inj hk).symm

-- ============================================================================
-- Ways to a wait
-- ============================================================================

/-- The instruction at place `m` creates the task that is waited for at place `j`. -/
structure Program.Awaited (p : Program) (m j : Nat) (creator : String) : Prop where
  before : m < j
  creates : ∃ c task, p[m]? = some c ∧ c.id = creator ∧ c.operation = .work (.createTask task)
  waits : ∃ i days, p[j]? = some i ∧ i.operation = .awaitTask creator days

section Ways

variable {p : Program} {table : Table Nat} {m j : Nat} {creator : String}

/-- In linked code every wait is for a task that an instruction before it creates. -/
theorem Program.LinkedFrom.exists_awaited (h : p.LinkedFrom 0 p) {i : Instruction} {days : Nat}
    (hi : p[j]? = some i) (hwait : i.operation = .awaitTask creator days) :
    ∃ m, p.Awaited m j creator := by
  have hhere := h j i hi
  rw [Nat.zero_add, hwait] at hhere
  obtain ⟨m, c, task, -, hm, hc, hid, hcreates⟩ := hhere
  exact ⟨m, hm, ⟨c, task, hc, hid, hcreates⟩, i, days, hi, hwait⟩

/-- Into the places behind the creation of a task, up to the wait for it, a walk comes from the
place before only. -/
theorem Program.Awaited.succ_of_follows (h : p.Awaited m j creator) (hlinked : p.LinkedFrom 0 p)
    (hplaces : Places p table) {a b : Nat}
    (hstep : Walk.Follows (p.map Instruction.toJson) table a b) (hm : m < b) (hj : b ≤ j) :
    b = a + 1 := by
  obtain ⟨step, vars, hsome, hnext⟩ := hstep
  obtain ⟨i, hi, rfl⟩ := exists_getElem?_of_map hsome
  -- The step before is linked: it leads to the next place or to one where a walk can begin.
  have hhere := hlinked a i hi
  rw [Nat.zero_add] at hhere
  obtain ⟨place, hplace, -, -, hway⟩ := Walk.next_of_linked hplaces hi hhere vars
  rw [hnext] at hplace
  cases hplace
  rcases hway with hsucc | hentry
  · exact hsucc
  · -- A walk could begin at `b`, but the creation stands before it.
    obtain ⟨c, task, hc, hid, -⟩ := h.creates
    obtain ⟨w, days, hw, hwait⟩ := h.waits
    obtain ⟨k, hk, other, hother, hsame⟩ := hentry j w creator days hj hw hwait
    have hunique : k = m := hplaces.eq hother hc (hsame.trans hid.symm)
    omega

/-- A walk from the start that comes to a place behind the creation, up to the wait, has been at the
creation before. -/
theorem Program.Awaited.mem_of_walk (h : p.Awaited m j creator) (hlinked : p.LinkedFrom 0 p)
    (hplaces : Places p table) {before : List Nat} {b : Nat} (hm : m < b) (hj : b ≤ j)
    (hstart : (before ++ [b]).head? = some 0)
    (hwalk : (before ++ [b]).IsChain (Walk.Follows (p.map Instruction.toJson) table)) :
    m ∈ before := by
  -- By induction on the walk, from its end: the place before the last one is again behind the
  -- creation, or is the creation.
  induction before using List.reverseRecOn generalizing b with
  | nil =>
    rw [List.nil_append, List.head?_cons, Option.some.injEq] at hstart
    omega
  | append_singleton before a ih =>
    rw [List.append_assoc] at hwalk
    have hlast := hwalk.right_of_append
    have hstep : Walk.Follows (p.map Instruction.toJson) table a b := by
      simpa using hlast
    have hsucc := h.succ_of_follows hlinked hplaces hstep hm hj
    by_cases ha : m = a
    · exact List.mem_append_right _ (List.mem_singleton.2 ha)
    · have hfrom : (before ++ [a]).head? = some 0 := by
        cases before with
        | nil => simpa using hstart
        | cons first rest => simpa using hstart
      have hchain : (before ++ [a]).IsChain (Walk.Follows (p.map Instruction.toJson) table) := by
        rw [← List.append_assoc] at hwalk
        exact hwalk.left_of_append
      exact List.mem_append_left _ (ih (by omega) (by omega) hfrom hchain)

end Ways

-- ============================================================================
-- Waits of definitions
-- ============================================================================

namespace Definition

variable {d : Definition} {p : Program}

/-- A standard step of the definition is lowered to the instructions of a stretch. -/
def Lowers (d : Definition) (p : Program) (start size : Nat) : Prop :=
  ∃ s ∈ stepsStandards d.steps, ∃ ids, Plan.LowersTo p (Template.keysOf d.vars) ids s start size

/-- The program of a definition is linked, and its table leads from each id to its place. -/
theorem exists_linked (h : d.compile = .ok p) :
    ∃ table, Walk.gotoTable (p.map Instruction.toJson) = .ok table ∧ Places p table ∧
      p.LinkedFrom 0 p := by
  obtain ⟨steps, hplanned, rfl⟩ := exists_plan_of_compile h
  obtain ⟨table, htable, hplaces⟩ :=
    Plan.exists_gotoTable_program ⟨d.trigger, d.contactRequired, steps⟩
  exact ⟨table, htable, hplaces, Plan.linkedFrom_program _ hplanned⟩

/-- Each wait of a program is for a task that an instruction before it creates, for as many days as
the task has, or seven, but a day at least. Both come from the same step. -/
theorem exists_creator (h : d.compile = .ok p) {j : Nat} {i : Instruction} {creator : String}
    {days : Nat} (hi : p[j]? = some i) (hwait : i.operation = .awaitTask creator days) :
    ∃ m c task, m < j ∧ p[m]? = some c ∧ c.id = creator ∧ c.operation = .work (.createTask task) ∧
      days = max (task.dueDays.getD defaultWaitDays) 1 ∧
      ∃ start size, d.Lowers p start size ∧ start ≤ m ∧ j < start + size := by
  obtain ⟨steps, hplanned, rfl⟩ := exists_plan_of_compile h
  rcases Plan.comes_program ⟨d.trigger, d.contactRequired, steps⟩ hplanned hi with
    htrigger | ⟨k, hk, hcondition⟩ | ⟨s, hs, hlowers⟩
  · rw [hwait] at htrigger
    exact absurd htrigger (by simp [Operation.word])
  · rw [hi] at hk
    cases hk
    rw [hwait] at hcondition
    exact absurd hcondition (by simp [Operation.word])
  -- Neither the ends of a program nor its conditions wait, nor do its actions.
  · rcases hlowers.cases hi with hmark | ⟨-, -, work, -, hwork⟩ |
      ⟨m, c, task, hm, hc, hcreates, hwaits, start, size, hlowersTo, hstart, hend⟩
    · rw [hwait] at hmark
      cases hmark
    · rw [hwait] at hwork
      cases hwork
    · rw [hwait] at hwaits
      cases hwaits
      exact ⟨m, c, task, hm, hc, rfl, hcreates, rfl, start, size,
        ⟨s, hs, _, hlowersTo⟩, hstart, hend⟩

theorem exists_awaited (h : d.compile = .ok p) {j : Nat} {i : Instruction} {creator : String}
    {days : Nat} (hi : p[j]? = some i) (hwait : i.operation = .awaitTask creator days) :
    ∃ m start size, p.Awaited m j creator ∧ d.Lowers p start size ∧ start ≤ m ∧
      j < start + size := by
  obtain ⟨m, c, task, hm, hc, hid, hcreates, -, start, size, hlowers, hstart, hend⟩ :=
    exists_creator h hi hwait
  exact ⟨m, start, size, ⟨hm, ⟨c, task, hc, hid, hcreates⟩, i, _, hi, hwait⟩, hlowers, hstart, hend⟩

end Definition
end Casework
