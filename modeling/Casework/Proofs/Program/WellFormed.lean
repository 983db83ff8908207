/-
  Casework.Proofs.Program.WellFormed

  What holds of every program that compilation gives, and when it gives one. The ids of a program
  are the names that its plan hands out, its instructions are linked, and so every walk through it
  comes to an end. A definition without issues always has a plan: nothing that a program is made
  from can be missing or of the wrong form once a definition passes the checks.
-/
import Casework.Proofs.Program.Course
import Casework.Proofs.Program.Preservation

namespace Casework

open Result

-- ============================================================================
-- Programs of plans
-- ============================================================================

namespace Plan

/-- The program of a plan is linked: its steps go on to its end, which stands behind them. -/
theorem linkedFrom_program (plan : Plan) {keys : Entries String} {steps : List Casework.Step}
    (hplanned : stepsOf keys steps = .ok plan.steps) : plan.program.LinkedFrom 0 plan.program := by
  obtain ⟨start, hstart, -, hprogram⟩ := plan.program_eq
  have hat := plan.program.hasAt_zero
  have hlength := plan.length_program
  rw [hprogram] at hat hlength ⊢
  have hlast := hat.tail.right
  rw [length_emitSteps, Nat.zero_add] at hlast
  have hending := Program.entry_of_last hlast (by omega) trivial
  refine .cons ?_ (.append ?_ (.single trivial))
  · rw [hstart]
    trivial
  · exact linkedFrom_emitSteps hplanned hat.tail.left ⟨_, hlast.head, rfl⟩ (Nat.le_refl _) hending
      hending

/-- The ids of a program have the form of ids. -/
theorem isId_of_mem_program {plan : Plan} {i : Instruction} (hi : i ∈ plan.program) :
    StepId.IsId i.id :=
  StepId.isId_of_mem_freshAll ((map_id_program_perm plan).mem_iff.1 (List.mem_map_of_mem hi))

end Plan

-- ============================================================================
-- Programs of definitions
-- ============================================================================

/-- A well-formed program: its ids tell its instructions apart, its conditions lead forward, and
every walk through it ends. -/
structure Program.WellFormed (p : Program) : Prop where
  /-- No two instructions have the same id. -/
  distinct : (p.map Instruction.id).Nodup
  /-- Every id has a character, and only plain letters, digits, underscores and hyphens. -/
  plain : ∀ i ∈ p, StepId.IsId i.id
  /-- Each target that the document of an instruction names is the id of an instruction behind
  it. -/
  forward : ∀ (k : Nat) (i : Instruction), p[k]? = some i →
    ∀ target ∈ Walk.jumpTargets i.toJson,
      ∃ (m : Nat) (j : Instruction), k < m ∧ p[m]? = some j ∧ target = .text j.id
  /-- Whatever variables the steps find, a walk ends behind the last instruction, and goes forward
  all the way, so that it visits no instruction twice. -/
  ends : ∃ table, Walk.gotoTable (p.map Instruction.toJson) = .ok table ∧
    ∀ (vars : Nat → Variables) (limit : Nat), p.length ≤ limit → ∃ visited,
      Walk.course (p.map Instruction.toJson) table limit vars 0 = .ok (visited, p.length) ∧
      visited.Pairwise (· < ·)

/-- A definition that compiles has a plan, which the program comes from. -/
theorem Definition.exists_plan_of_compile {d : Definition} {p : Program} (h : d.compile = .ok p) :
    ∃ steps, Plan.stepsOf (Template.keysOf d.vars) d.steps = .ok steps ∧
      p = Plan.program ⟨d.trigger, d.contactRequired, steps⟩ := by
  rw [Definition.compile] at h
  split at h
  case isFalse => cases h
  case isTrue =>
    split at h
    case h_2 => cases h
    case h_1 plan hplan =>
      obtain ⟨steps, hsteps, hsame⟩ := bind_eq_ok_iff.1 hplan
      cases hsame
      cases h
      exact ⟨steps, hsteps, rfl⟩

/-- Every program that compilation gives is well formed. -/
theorem Definition.wellFormed_of_compile {d : Definition} {p : Program} (h : d.compile = .ok p) :
    p.WellFormed := by
  obtain ⟨steps, hplanned, rfl⟩ := exists_plan_of_compile h
  have hlinked := Plan.linkedFrom_program ⟨d.trigger, d.contactRequired, steps⟩ hplanned
  obtain ⟨table, htable, hplaces⟩ :=
    Plan.exists_gotoTable_program ⟨d.trigger, d.contactRequired, steps⟩
  refine ⟨Plan.nodup_map_id_program _, fun i hi => Plan.isId_of_mem_program hi, ?_,
    table, htable, ?_⟩
  -- Targets are linked, so they stand behind.
  · intro k i hi target htarget
    rw [Walk.jumpTargets_toJson] at htarget
    obtain ⟨id, hid, rfl⟩ := List.mem_map.1 htarget
    have hhere := hlinked k i hi
    rw [Nat.zero_add] at hhere
    obtain ⟨m, hforward, -, j, hj, rfl⟩ := hhere.behind hid
    exact ⟨m, j, hforward, hj, rfl⟩
  -- A walk over linked instructions goes forward, and so it ends.
  · intro vars limit hlimit
    obtain ⟨visited, hcourse, hvisited, -⟩ :=
      Walk.exists_course hplaces hlinked limit vars (Nat.zero_le _) (by omega)
    exact ⟨visited, hcourse, hvisited⟩

theorem Definition.wellFormed_routing : ∃ p, routing.compile = .ok p ∧ p.WellFormed := by
  obtain ⟨plan, -, hcompile⟩ := compile_of_issues_eq_nil (d := routing) (by decide)
  exact ⟨plan.program, hcompile, wellFormed_of_compile hcompile⟩

-- ============================================================================
-- Programs of documents
-- ============================================================================

/-- The ids of other instructions that an operation names. -/
def Operation.references : Operation → List String
  | .awaitTask creator _ => [creator]
  | operation => operation.jumps

theorem Program.IdAt.mem {p : Program} {k : Nat} {id : String} (h : p.IdAt k id) :
    id ∈ p.map Instruction.id := by
  obtain ⟨i, hi, rfl⟩ := h
  exact List.mem_map_of_mem (List.mem_of_getElem? hi)

/-- A linked operation refers to instructions of the program only. -/
theorem Operation.Linked.mem_of_mem_references {p : Program} {q k : Nat} {operation : Operation}
    (h : operation.Linked p q k) {id : String} (hid : id ∈ operation.references) :
    id ∈ p.map Instruction.id := by
  cases operation with
  | awaitTask creator days =>
    obtain rfl : id = creator := List.mem_singleton.1 hid
    obtain ⟨m, i, task, -, -, hi, hcreator, -⟩ := h
    exact Program.IdAt.mem ⟨i, hi, hcreator⟩
  | start | mark | work | branch | goto =>
    obtain ⟨m, -, -, hat⟩ := h.behind hid
    exact hat.mem

/-- Reading does not fail without an issue. -/
theorem Definition.issues_ne_nil_of_ofJson {j : Json} {error : CompileError}
    (h : Definition.ofJson j = .error error) : error.issues ≠ [] := by
  cases j with
  | object fields =>
    rw [Definition.ofJson] at h
    split at h
    split at h
    case isTrue => cases h
    case isFalse hissues =>
      cases h
      simpa using hissues
  | _ =>
    cases h
    exact List.cons_ne_nil _ _

/-- A definition with issues is refused with them. -/
theorem Definition.compile_of_issues_ne_nil {d : Definition} (h : d.issues ≠ []) :
    d.compile = .error (.issues ⟨d.issues⟩) := by
  rw [Definition.compile, if_neg (by simpa using h)]

/-- The three ways in which compilation ends: the document cannot be read, its definition has
issues, or the definition has a plan. -/
theorem compile_cases (j : Json) :
    (∃ error, Definition.ofJson j = .error error ∧ error.issues ≠ [] ∧
      compile j = .error (.issues error)) ∨
    (∃ d, Definition.ofJson j = .ok d ∧ d.issues ≠ [] ∧ compile j = .error (.issues ⟨d.issues⟩)) ∨
    ∃ d plan, Definition.ofJson j = .ok d ∧ d.issues = [] ∧ Plan.ofDefinition d = .ok plan ∧
      compile j = .ok plan.program := by
  rw [compile]
  cases hread : Definition.ofJson j with
  | error error => exact .inl ⟨error, rfl, Definition.issues_ne_nil_of_ofJson hread, rfl⟩
  | ok d =>
    by_cases hissues : d.issues = []
    · obtain ⟨plan, hplan, hcompile⟩ := Definition.compile_of_issues_eq_nil hissues
      exact .inr (.inr ⟨d, plan, rfl, hissues, hplan, hcompile⟩)
    · exact .inr (.inl ⟨d, rfl, hissues, Definition.compile_of_issues_ne_nil hissues⟩)

/-- No id that an instruction of a plan's program names is missing. -/
theorem Plan.mem_of_mem_references {d : Definition} {plan : Plan}
    (hplan : Plan.ofDefinition d = .ok plan) {i : Instruction} (hi : i ∈ plan.program) {id : String}
    (hid : id ∈ i.operation.references) : id ∈ plan.program.map Instruction.id := by
  obtain ⟨steps, hplanned, hsame⟩ := bind_eq_ok_iff.1 hplan
  cases hsame
  have hlinked := linkedFrom_program ⟨d.trigger, d.contactRequired, steps⟩ hplanned
  obtain ⟨k, hk⟩ := List.mem_iff_getElem?.1 hi
  exact (hlinked k i hk).mem_of_mem_references hid

/-- Compilation gives a program exactly for the documents that can be read as a definition without
issues. For any other document it gives the issues, those of the reading or those of the definition,
and never a fault. No id in a program is empty, and none that an instruction names is missing. -/
theorem compile_eq_ok_iff (j : Json) :
    ((∃ p, compile j = .ok p) ↔ ∃ d, Definition.ofJson j = .ok d ∧ d.issues = []) ∧
    (∀ refusal, compile j = .error refusal → ∃ error : CompileError,
      refusal = .issues error ∧ error.issues ≠ [] ∧
      (Definition.ofJson j = .error error ∨
        ∃ d, Definition.ofJson j = .ok d ∧ error.issues = d.issues)) ∧
    (∀ p, compile j = .ok p → ∀ i ∈ p, i.id ≠ "" ∧
      ∀ id ∈ i.operation.references, id ∈ p.map Instruction.id) := by
  rcases compile_cases j with ⟨error, hread, hissues, hcompile⟩ | ⟨d, hread, hissues, hcompile⟩ |
    ⟨d, plan, hread, hissues, hplan, hcompile⟩
  -- It cannot be read.
  · simp only [hread, hcompile]
    refine ⟨by simp, fun refusal h => ?_, fun p h => by cases h⟩
    cases h
    exact ⟨error, rfl, hissues, .inl rfl⟩
  -- It can be read, but has issues.
  · simp only [hread, hcompile]
    refine ⟨by simp [hissues], fun refusal h => ?_, fun p h => by cases h⟩
    cases h
    exact ⟨⟨d.issues⟩, rfl, hissues, .inr ⟨d, rfl, rfl⟩⟩
  -- It has none, and a plan.
  · simp only [hread, hcompile]
    refine ⟨by simp [hissues], by simp, fun p h => ?_⟩
    cases h
    exact fun i hi => ⟨(Plan.isId_of_mem_program hi).1,
      fun id => Plan.mem_of_mem_references hplan hi⟩

end Casework
