/-
  Casework.Proofs.Program.Preservation

  Making a program of a definition keeps its meaning: whoever walks through the program does exactly
  what the definition says, whatever the deeds do to the variables, and ends behind the last
  instruction.
-/
import Casework.Proofs.Program.Simulation

namespace Casework

open Result

-- ============================================================================
-- Names of the parts
-- ============================================================================

namespace Plan

/-- The labels of planned actions name the actions, in order. -/
theorem map_fst_actionLabels {keys : Entries String} {actions : List Casework.Action}
    {planned : List Action} (n : Nat)
    (h : List.Forall₂ (fun action result => actionOf keys action = .ok result) actions planned) :
    (actionLabels n planned).map Prod.fst = actions.map fun action => .action action.id := by
  induction h generalizing n with
  | nil => rfl
  | cons hfirst _ ih =>
    obtain ⟨work, -, rfl⟩ := map_eq_ok_iff.1 hfirst
    rw [actionLabels, List.map_cons, List.map_cons, ih]

mutual

/-- The labels of a planned step are those of the parts of the step. -/
theorem map_fst_labels_sublist {keys : Entries String} {step : Casework.Step} {planned : Step}
    (h : stepOf keys step = .ok planned) (n : Nat) :
    ((planned.labels n).map Prod.fst).Sublist step.parts := by
  cases step with
  | standard head actions advancement =>
    obtain ⟨works, wait, hworks, -, rfl⟩ := stepOf_standard_eq_ok h
    rw [Step.labels, Casework.Step.parts, List.map_append,
      map_fst_actionLabels n (mapM_eq_ok_iff.1 hworks)]
    refine (List.Sublist.refl _).append ?_
    cases wait with
    | none => exact List.nil_sublist _
    | some wait => exact List.Sublist.refl _
  | branch head condition tracks =>
    obtain ⟨field, comparison, guards, planned, -, -, htracks, rfl⟩ := stepOf_branch_eq_ok h
    exact (map_fst_tracksLabels_sublist htracks (n + 2)).cons _

/-- The labels of planned steps name parts of the steps, in order. -/
theorem map_fst_stepsLabels_sublist {keys : Entries String} {steps : List Casework.Step}
    {planned : List Step} (h : stepsOf keys steps = .ok planned) (n : Nat) :
    ((stepsLabels n planned).map Prod.fst).Sublist (stepsParts steps) := by
  cases steps with
  | nil =>
    cases h
    exact List.Sublist.slnil
  | cons step rest =>
    obtain ⟨first, more, hfirst, hmore, rfl⟩ := stepsOf_cons_eq_ok h
    rw [stepsLabels, stepsParts, List.map_append]
    exact (map_fst_labels_sublist hfirst n).append (map_fst_stepsLabels_sublist hmore _)

theorem map_fst_tracksLabels_sublist {keys : Entries String} {guards : List (Option String)}
    {tracks : List Casework.Track} {planned : List Track}
    (h : tracksOf keys guards tracks = .ok planned) (n : Nat) :
    ((tracksLabels n planned).map Prod.fst).Sublist (tracksParts tracks) := by
  match tracks with
  | [] =>
    cases h
    exact List.Sublist.slnil
  | .mk id label steps :: rest =>
    obtain ⟨first, more, hfirst, -, hmore, rfl⟩ := tracksOf_cons_eq_ok h
    rw [tracksLabels, tracksParts, List.map_append]
    exact (map_fst_stepsLabels_sublist hfirst n).append (map_fst_tracksLabels_sublist hmore _)

end

/-- Where parts differ, their numbers give them names. -/
theorem exists_named (ids : Naming) {labels : List (Part × Nat)}
    (h : (labels.map Prod.fst).Nodup) : ∃ names : Part → String, Named names ids labels := by
  induction labels with
  | nil => exact ⟨fun _ => "", by simp [Named]⟩
  | cons label rest ih =>
    obtain ⟨part, n⟩ := label
    rw [List.map_cons, List.nodup_cons] at h
    obtain ⟨names, hnames⟩ := ih h.2
    refine ⟨fun other => if other = part then ids n else names other, fun other k hmem => ?_⟩
    rcases List.mem_cons.1 hmem with heq | hmem
    · cases heq
      exact if_pos rfl
    · have hne : other ≠ part := by
        rintro rfl
        exact h.1 (List.mem_map.2 ⟨(other, k), by assumption, rfl⟩)
      exact (if_neg hne).trans (hnames other k hmem)

-- ============================================================================
-- Programs
-- ============================================================================

/-- The table of a program leads from each id to its place. -/
theorem exists_gotoTable_program (plan : Plan) :
    ∃ table, Walk.gotoTable (plan.program.map Instruction.toJson) = .ok table ∧
      Places plan.program table := by
  refine ⟨_, Walk.gotoTable_toJson plan.program, fun k i hi => ?_⟩
  rw [Walk.get?_places plan.program [] 0 k (nodup_map_id_program plan) hi, Nat.zero_add]

/-- A walk through a program does what its steps say, and visits the end last. -/
theorem leads_program {σ : Type} {plan : Plan} {table : Table Nat} {a : Agent σ}
    {steps : List Casework.Step} (hplaces : Places plan.program table)
    (hplanned : stepsOf a.keys steps = .ok plan.steps)
    (hnamed : Named a.names (namingOf plan.names) (stepsLabels 1 plan.steps)) (s : σ) :
    ∃ visited s', Walk.Leads a.walker (plan.program.map Instruction.toJson) table 0 s
        (visited ++ [plan.program.length - 1]) plan.program.length s' ∧
      a.ofSteps steps s =
        .ok (plan.program.deeds (visited ++ [plan.program.length - 1]), s') := by
  -- The program: a start, the instructions of the steps, and an end.
  obtain ⟨start, hstart, -, hprogram⟩ := plan.program_eq
  have hat : plan.program.HasAt 0 (start :: (emitSteps (namingOf plan.names) 1 plan.ending.id
      plan.steps ++ [plan.ending])) := by
    rw [← hprogram]
    exact plan.program.hasAt_zero
  have hending : plan.program[1 + stepsSize plan.steps]? = some plan.ending := by
    have hlast := hat.tail.right.head
    rwa [length_emitSteps, Nat.zero_add] at hlast
  have hlength : plan.program.length = 1 + stepsSize plan.steps + 1 := by
    rw [length_program]
    omega
  have hnext : ∀ i : Instruction, i.operation.word = "trigger" → ∀ q vars,
      Walk.next i.toJson q table vars = .ok (q + 1) :=
    fun i hword q vars => Walk.next_of_not_condition i q table vars (by rw [hword]; decide)
  -- From the start to the first step nothing is done.
  have hbegin : Simulates a.walker plan.program table 0 1 fun s => .ok ([], s) :=
    .pass hat.head (by rw [Instruction.isDeed, hstart]; rfl) Nat.zero_lt_one
      (hnext start (by rw [hstart]; rfl) 0)
  -- The walk through the steps does what they say, by the simulation.
  have hsteps := simulates_steps hplaces hplanned hat.tail.left (hplaces _ _ hending)
    (Nat.le_refl _) hnamed
  rw [behind_self] at hsteps
  have hall := hbegin.andThen hsteps
  rw [Deeds.nothing_andThen] at hall
  obtain ⟨visited, s', hleads, hrun⟩ := hall s
  have hidle : plan.ending.isDeed = false := rfl
  -- At the end nothing is done either.
  have hlast : Walk.Leads a.walker (plan.program.map Instruction.toJson) table
      (1 + stepsSize plan.steps) s' [1 + stepsSize plan.steps]
        (1 + stepsSize plan.steps + 1) s' := by
    have hsingle := Walk.Leads.single (w := a.walker) (s := s')
      (Program.getElem?_map_toJson hending) (hnext plan.ending rfl _ _) (Nat.lt_succ_self _)
    rwa [after_of_idle _ hidle] at hsingle
  rw [hlength, Nat.add_sub_cancel]
  refine ⟨visited, s', hleads.trans hlast, ?_⟩
  rw [hrun, Program.deeds_append, Program.deeds_of_idle hending hidle, List.append_nil]

end Plan

/-- The walk through the program of a definition without issues does what the definition says, in
the order in which it says so, and ends behind the last instruction, which it visits last. -/
theorem Definition.tour_compile_eq_meaning {d : Definition} (h : d.issues = []) :
    ∃ (p : Program) (table : Table Nat) (names : Part → String) (ending : Instruction),
      d.compile = .ok p ∧ Walk.gotoTable (p.map Instruction.toJson) = .ok table ∧
      (p.map Instruction.id).Nodup ∧ p.getLast? = some ending ∧ ending.label = "Workflow End" ∧
      ∀ (σ : Type) (w : Walk.Walker σ) (s : σ) (limit : Nat), p.length ≤ limit →
        ∃ (visited : List Nat) (s' : σ),
          Walk.tour w (p.map Instruction.toJson) table limit 0 s = .ok ⟨visited, p.length, s'⟩ ∧
          visited.getLast? = some (p.length - 1) ∧
          d.meaning names w s = .ok (p.deeds visited, s') := by
  obtain ⟨plan, hplan, hcompile⟩ := Definition.compile_of_issues_eq_nil h
  obtain ⟨steps, hplanned, hsame⟩ := bind_eq_ok_iff.1 hplan
  cases hsame
  obtain ⟨table, htable, hplaces⟩ := Plan.exists_gotoTable_program
    ⟨d.trigger, d.contactRequired, steps⟩
  have hparts := (Plan.map_fst_stepsLabels_sublist hplanned 1).nodup (Definition.nodup_parts h)
  obtain ⟨names, hnamed⟩ := Plan.exists_named _ hparts
  refine ⟨_, table, names, _, hcompile, htable, Plan.nodup_map_id_program _,
    Plan.getLast?_program _, rfl, fun σ w s limit hlimit => ?_⟩
  obtain ⟨visited, s', hleads, hmeaning⟩ :=
    Plan.leads_program (a := ⟨Template.keysOf d.vars, names, w⟩) hplaces hplanned hnamed s
  refine ⟨_, s', hleads.tour_eq_ok (by simp) ?_, List.getLast?_concat, hmeaning⟩
  have hle := hleads.add_length_le
  omega

/-- A branch within a track of another one, with a step before and behind. -/
def routing : Definition where
  id := "routing"
  name := "Routing"
  description := none
  trigger := ⟨.manual, none⟩
  contactRequired := true
  statuses := [⟨"open", "Open", .whole 1, none⟩]
  vars := []
  phases := []
  steps := [
    .standard ⟨"ask", "Ask", none⟩
      [⟨"call", "create_task",
        ⟨[("assignTo", .obj [("type", .text "role"), ("role", .text "agent")])]⟩⟩]
      ⟨"when_task_completed", ⟨[("taskActionId", .text "call")]⟩⟩,
    .branch ⟨"kind", "Kind", none⟩ ⟨"var-contact.status", "equals", .text "lead"⟩ [
      .mk "yes" "Yes" [
        .branch ⟨"size", "Size", none⟩ ⟨"var-contact.email", "in", .list [.text "small"]⟩ [
          .mk "small" "Small" [.standard ⟨"mail", "Mail", none⟩
            [⟨"hello", "send_email", ⟨[("to", .text "a")]⟩⟩] ⟨"automatic", .empty⟩],
          .mk "other" "Other" [.standard ⟨"pause", "Pause", none⟩ [] ⟨"automatic", .empty⟩]]],
      .mk "no" "No" [.standard ⟨"close", "Close", none⟩
        [⟨"done", "update_status", ⟨[("status", .text "open")]⟩⟩] ⟨"automatic", .empty⟩]]]

theorem Definition.tour_compile_routing :
    routing.issues = [] ∧ ∃ (p : Program) (names : Part → String), routing.compile = .ok p ∧
      ∀ vars : Variables, ∃ visited : List Nat,
        routing.meaning names (.still vars) () = .ok (p.deeds visited, ()) ∧
        visited.getLast? = some (p.length - 1) := by
  have hissues : routing.issues = [] := by decide
  obtain ⟨p, table, names, ending, hcompile, -, -, -, -, hwalk⟩ :=
    Definition.tour_compile_eq_meaning hissues
  refine ⟨hissues, p, names, hcompile, fun vars => ?_⟩
  obtain ⟨visited, s', -, hlast, hmeaning⟩ := hwalk Unit (.still vars) () p.length (Nat.le_refl _)
  exact ⟨visited, hmeaning, hlast⟩

end Casework
