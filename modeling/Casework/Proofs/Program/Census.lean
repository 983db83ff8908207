/-
  Casework.Proofs.Program.Census

  Nothing is lost or doubled when a definition is lowered. Its program has one instruction for each
  of its sources, in their order: each says for which step it stands, what it does, and under which
  of the ids that the plan suggests. Since an instruction tells the part that it plays, the
  instructions of every part can be counted: those that do something are the deeds that are written,
  in the order in which they are written, and of every other kind there is one for each place that
  needs it.
-/
import Casework.Proofs.Definition.Sources
import Casework.Proofs.Program.Origin

namespace Casework

open Result

-- ============================================================================
-- Instructions and their sources
-- ============================================================================

/-- The type of the instruction for a kind of action. -/
def actionWord (kind : String) : String := if kind == "create_task" then "assign_task" else kind

/-- The caption of a merge, as it stands behind the name of its step. -/
def mergeCaption : List Char := ": Merge".toList

/-- The part that an instruction plays. The end is told from anchors by its label, and merges from
skips by how their labels end. -/
def Instruction.role (i : Instruction) : Role :=
  match i.operation with
  | .start .. => .start
  | .mark => if i.label = "Workflow End" then .ending else .anchor
  | .work _ => .deed
  | .awaitTask .. => .deed
  | .branch .. => .test
  | .goto _ => if mergeCaption.isSuffixOf i.label.toList then .merge else .skip

/-- Whether an instruction plays a part. -/
def Instruction.plays (role : Role) (i : Instruction) : Bool := i.role == role

/-- An instruction is written for a source: it stands for its step, and does what the source
says. -/
def Source.Writes (keys : Entries String) : Source → Instruction → Prop
  | .start trigger contactRequired, i =>
    i = ⟨i.id, "Trigger", none, .start trigger contactRequired⟩
  | .action head _ authored, i =>
    ∃ work, Plan.workOf keys authored.kind authored.config = .ok work ∧
      i.operation.word = actionWord authored.kind ∧
      i = Plan.instruction head i.id (Plan.caption work) (.work work)
  | .wait head, i =>
    ∃ creator days, i = Plan.instruction head i.id "Wait for Task" (.awaitTask creator days)
  | .anchor head, i => i = Plan.instruction head i.id "Anchor" .mark
  | .test branch, i =>
    ∃ field comparison targets otherwise, Plan.fieldOf branch.condition = .ok field ∧
      i = Plan.instruction branch.head i.id "Branch" (.branch field comparison targets otherwise)
  | .skip head _, i => ∃ merge, i = Plan.instruction head i.id "Skip to Merge" (.goto merge)
  | .merge head, i => ∃ follow, i = Plan.instruction head i.id "Merge" (.goto follow)
  | .ending, i => i = ⟨i.id, "Workflow End", none, .mark⟩

/-- The word of the work is the one for the kind of the action. -/
theorem actionWord_of_workOf {keys : Entries String} {kind : String} {config : Fields} {work : Work}
    (h : Plan.workOf keys kind config = .ok work) : work.word = actionWord kind := by
  unfold Plan.workOf at h
  split at h
  case h_5 => cases h
  all_goals
    obtain ⟨_, -, rfl⟩ := map_eq_ok_iff.1 h
    rfl

/-- The labels of instructions of steps end in their captions. -/
theorem toList_label_instruction (head : StepHead) (id caption : String) (operation : Operation) :
    (Plan.instruction head id caption operation).label.toList =
      head.name.toList ++ (": ".toList ++ caption.toList) := by
  simp [Plan.instruction, String.toList_append]

theorem role_merge (head : StepHead) (id follow : String) :
    (Plan.instruction head id "Merge" (.goto follow)).role = .merge := by
  have hsuffix : mergeCaption <:+
      (Plan.instruction head id "Merge" (.goto follow)).label.toList := by
    rw [toList_label_instruction]
    exact List.suffix_append ..
  exact if_pos (List.isSuffixOf_iff_suffix.2 hsuffix)

theorem role_skip (head : StepHead) (id merge : String) :
    (Plan.instruction head id "Skip to Merge" (.goto merge)).role = .skip := by
  refine if_neg fun h => ?_
  have hsuffix := List.isSuffixOf_iff_suffix.1 h
  rw [toList_label_instruction] at hsuffix
  have hcaption := List.suffix_of_suffix_length_le hsuffix (List.suffix_append ..) (by decide)
  exact absurd hcaption (by decide)

theorem role_anchor (head : StepHead) (id : String) :
    (Plan.instruction head id "Anchor" .mark).role = .anchor := by
  refine if_neg fun h => ?_
  have hlist := congrArg (fun label => label.toList.getLast?) h
  rw [toList_label_instruction, ← List.append_assoc, List.getLast?_append] at hlist
  have hlast : "Anchor".toList.getLast? = some 'r' := by decide
  rw [hlast, Option.some_or] at hlist
  exact absurd hlist (by decide)

/-- An instruction plays the part of its source. -/
theorem Source.Writes.role_eq {keys : Entries String} {source : Source} {i : Instruction}
    (h : source.Writes keys i) : source.role = i.role := by
  cases source with
  | start trigger contactRequired => rw [show i = _ from h]; rfl
  | action head index action => obtain ⟨work, -, -, hi⟩ := h; rw [hi]; rfl
  | wait head => obtain ⟨creator, days, hi⟩ := h; rw [hi]; rfl
  | anchor head => rw [show i = _ from h, role_anchor]; rfl
  | test branch => obtain ⟨field, comparison, targets, otherwise, -, hi⟩ := h; rw [hi]; rfl
  | skip head index => obtain ⟨merge, hi⟩ := h; rw [hi, role_skip]; rfl
  | merge head => obtain ⟨follow, hi⟩ := h; rw [hi, role_merge]; rfl
  | ending => rw [show i = _ from h]; rfl

/-- The instructions that do something are those that are neither marks nor conditions. -/
theorem plays_deed (i : Instruction) :
    i.plays .deed = !(["trigger", "condition"].contains i.operation.word) := by
  rcases i with ⟨id, label, phase, operation⟩
  cases operation with
  | start | branch | awaitTask => rfl
  | mark =>
    show ((if label = "Workflow End" then Role.ending else .anchor) == Role.deed) = false
    split <;> rfl
  | goto target =>
    show ((if mergeCaption.isSuffixOf label.toList then Role.merge else .skip) == Role.deed) = false
    split <;> rfl
  | work work => cases work <;> rfl

-- ============================================================================
-- The instructions of the parts
-- ============================================================================

namespace Plan

variable {keys : Entries String} {ids : Naming}

/-- An instruction is written for a source, and has the id of a number from `n` on for which the id
of the source is suggested. -/
def Stands (keys : Entries String) (ids : Naming) (n : Nat) (bases : List String) (source : Source)
    (i : Instruction) : Prop :=
  source.Writes keys i ∧ ∃ m, bases[m]? = some source.base ∧ i.id = ids (n + m)

namespace Stands

variable {n : Nat} {bases more : List String} {source : Source} {i : Instruction}

/-- What stands among some texts stands among more of them. -/
theorem left (h : Stands keys ids n bases source i) :
    Stands keys ids n (bases ++ more) source i := by
  obtain ⟨hwrites, m, hbase, hid⟩ := h
  obtain ⟨hm, -⟩ := List.getElem?_eq_some_iff.1 hbase
  exact ⟨hwrites, m, (List.getElem?_append_left hm).trans hbase, hid⟩

/-- What stands among some texts stands among more of them that come before. -/
theorem right (bases : List String) (h : Stands keys ids (n + bases.length) more source i) :
    Stands keys ids n (bases ++ more) source i := by
  obtain ⟨hwrites, m, hbase, hid⟩ := h
  refine ⟨hwrites, bases.length + m, ?_, by rw [hid, Nat.add_assoc]⟩
  rw [List.getElem?_append_right (Nat.le_add_right ..), Nat.add_sub_cancel_left, hbase]

end Stands

/-- The actions of a step are lowered one by one. -/
theorem stands_emitActions {actions : List Casework.Action} {works : List Action} (head : StepHead)
    (index n : Nat) (hworks : actions.mapM (actionOf keys) = .ok works) :
    List.Forall₂ (Stands keys ids n (actionBases head.id index works))
      ((actions.zipIdx index).map fun (action, index) => .action head index action)
      (emitActions ids head n works) := by
  rw [mapM_eq_ok_iff] at hworks
  induction hworks generalizing index n with
  | nil => exact .nil
  | @cons action planned actions works hfirst _ ih =>
    obtain ⟨work, hwork, rfl⟩ := map_eq_ok_iff.1 hfirst
    rw [List.zipIdx_cons, List.map_cons, emitActions, actionBases]
    refine .cons ⟨⟨work, hwork, actionWord_of_workOf hwork, rfl⟩, 0, rfl, rfl⟩ ?_
    exact (ih (index + 1) (n + 1)).imp fun source i h => h.right [_]

/-- The instructions of a standard step stand for its sources, one for each, with the texts for
their ids. -/
theorem stands_emitStandard {s : StandardStep} {works : List Action} {wait : Option Wait} (n : Nat)
    (hworks : s.actions.mapM (actionOf keys) = .ok works)
    (hwait : waitOf s.advancement works = .ok wait) :
    List.Forall₂ (Stands keys ids n (Step.standard s.head works wait).bases) s.sources
      (emitStandard ids n s.head works wait) := by
  have hactions : List.Forall₂ (Stands keys ids n (actionBases s.head.id 0 works)) s.doings
      (emitActions ids s.head n works) := stands_emitActions s.head 0 n hworks
  have hlength : works.length = s.actions.length := (mapM_eq_ok_iff.1 hworks).length_eq.symm
  rcases waitOf_cases hworks hwait with
    ⟨hkind, rfl⟩ | ⟨id, action, position, task, hkind, -, -, -, hcreator, rfl⟩
  -- Without a wait: the actions are all deeds, and an anchor stands where there is none.
  · have hdeeds : s.deeds = s.doings := by
      rw [StandardStep.deeds, if_neg hkind, List.append_nil]
    rw [StandardStep.sources, hdeeds]
    cases hworks' : works with
    | nil =>
      have hnone : s.actions = [] :=
        List.length_eq_zero_iff.1 (hlength.symm.trans (by rw [hworks']; rfl))
      rw [StandardStep.doings, hnone]
      exact .cons ⟨rfl, 0, rfl, rfl⟩ .nil
    | cons first rest =>
      have hsome : s.doings.isEmpty = false := by
        have hactions : s.actions ≠ [] := by
          rintro hnone
          rw [hnone, hworks'] at hlength
          cases hlength
        simpa [StandardStep.doings, List.isEmpty_eq_false_iff] using hactions
      rw [hsome, if_neg Bool.false_ne_true, ← hworks', Step.bases, emitStandard, hworks',
        if_neg (by simp), if_neg (by simp), ← hworks']
      exact hactions
  -- With a wait, which is the last deed.
  · have hdeeds : s.deeds = s.doings ++ [.wait s.head] := by rw [StandardStep.deeds, if_pos hkind]
    have hsome : (s.doings ++ [Source.wait s.head]).isEmpty = false := by simp
    rw [StandardStep.sources, hdeeds, hsome, if_neg Bool.false_ne_true, Step.bases, emitStandard]
    refine List.rel_append (hactions.imp fun source i h => h.left) (.cons (Stands.right _ ?_) .nil)
    exact ⟨⟨_, _, rfl⟩, 0, rfl, by rw [length_actionBases]; rfl⟩

/-- A planned step ends like a standard step if it is one. -/
theorem isStandard_of_stepOf {step : Casework.Step} {planned : Step}
    (h : stepOf keys step = .ok planned) :
    endsStandard [planned] = step.isStandard := by
  cases step with
  | standard head actions advancement =>
    obtain ⟨works, wait, -, -, rfl⟩ := stepOf_standard_eq_ok h
    rfl
  | branch head condition tracks =>
    obtain ⟨field, comparison, guards, planned, -, -, -, rfl⟩ := stepOf_branch_eq_ok h
    rfl

/-- Planning keeps whether the last step is a standard one. -/
theorem endsStandard_of_stepsOf {steps : List Casework.Step} {planned : List Step}
    (h : stepsOf keys steps = .ok planned) : endsStandard planned = lastIsStandard steps := by
  induction steps generalizing planned with
  | nil => cases h; rfl
  | cons step rest ih =>
    obtain ⟨first, more, hfirst, hmore, rfl⟩ := stepsOf_cons_eq_ok h
    have hrest := ih hmore
    cases rest with
    | nil =>
      cases hmore
      exact isStandard_of_stepOf hfirst
    | cons next others =>
      obtain ⟨second, last, -, -, rfl⟩ := stepsOf_cons_eq_ok hmore
      have hskip : endsStandard (first :: second :: last) = endsStandard (second :: last) := by
        cases first <;> rfl
      rw [hskip, hrest, lastIsStandard, lastIsStandard, List.getLast?_cons_cons]

theorem isEmpty_of_tracksOf {guards : List (Option String)} {tracks : List Casework.Track}
    {planned : List Track} (h : tracksOf keys guards tracks = .ok planned) :
    planned.isEmpty = tracks.isEmpty := by
  cases tracks with
  | nil => cases h; rfl
  | cons track rest =>
    obtain ⟨id, label, steps⟩ := track
    obtain ⟨first, more, -, -, -, rfl⟩ := tracksOf_cons_eq_ok h
    rfl

mutual

/-- The instructions of a step are written for its sources. -/
theorem stands_emitStep {step : Casework.Step} {planned : Step} (n : Nat) (follow : String)
    (hplanned : stepOf keys step = .ok planned) :
    List.Forall₂ (Stands keys ids n planned.bases) step.sources
    (emitStep ids n follow planned) := by
  cases step with
  | standard head actions advancement =>
    obtain ⟨works, wait, hworks, hwait, rfl⟩ := stepOf_standard_eq_ok hplanned
    rw [emitStep]
    exact stands_emitStandard (s := ⟨head, actions, advancement⟩) n hworks hwait
  | branch head condition tracks =>
    obtain ⟨field, comparison, guards, planned, hfield, -, htracks, rfl⟩ :=
      stepOf_branch_eq_ok hplanned
    rw [Casework.Step.sources, emitStep, Step.bases]
    -- The test and the merge have the first two ids, and the tracks those behind.
    refine .cons ⟨⟨field, _, _, _, hfield, rfl⟩, 0, rfl, rfl⟩ (List.rel_append ?_ ?_)
    · exact (stands_emitTracks head _ 0 (n + 2) htracks).imp fun source i h => h.right [_, _]
    · exact .cons ⟨⟨_, rfl⟩, 1, rfl, rfl⟩ .nil

/-- The instructions of some steps stand for the sources of these steps. -/
theorem stands_emitSteps {steps : List Casework.Step} {planned : List Step} (n : Nat)
    (follow : String)
    (hplanned : stepsOf keys steps = .ok planned) :
    List.Forall₂ (Stands keys ids n (stepsBases planned)) (stepsSources steps)
      (emitSteps ids n follow planned) := by
  match steps with
  | [] =>
    cases hplanned
    exact .nil
  | step :: rest =>
    obtain ⟨first, more, hfirst, hmore, rfl⟩ := stepsOf_cons_eq_ok hplanned
    rw [stepsSources, emitSteps, stepsBases]
    refine List.rel_append ((stands_emitStep n _ hfirst).imp fun source i h => h.left) ?_
    refine (stands_emitSteps (n + first.size) follow hmore).imp fun source i h => Stands.right _ ?_
    rw [length_stepBases]
    exact h

/-- The instructions of some tracks stand for the sources of these tracks. -/
theorem stands_emitTracks {tracks : List Casework.Track} {guards : List (Option String)}
    {planned : List Track} (head : StepHead) (merge : String) (index n : Nat)
    (hplanned : tracksOf keys guards tracks = .ok planned) :
    List.Forall₂ (Stands keys ids n (tracksBases head.id index planned))
      (tracksSources head index tracks) (emitTracks ids head merge n planned) := by
  match tracks with
  | [] =>
    cases hplanned
    exact .nil
  | .mk id label steps :: rest =>
    obtain ⟨first, more, hfirst, -, hmore, rfl⟩ := tracksOf_cons_eq_ok hplanned
    have hskips : (!rest.isEmpty && lastIsStandard steps) = skips first more := by
      rw [skips, endsStandard_of_stepsOf hfirst, isEmpty_of_tracksOf hmore]
    rw [tracksSources, emitTracks, tracksBases, hskips]
    refine List.rel_append (List.rel_append ?_ ?_) ?_
    -- The steps of the first track.
    · exact (stands_emitSteps n merge hfirst).imp fun source i h => h.left.left
    -- Its skip, if there is one.
    · split
      case isTrue =>
        refine .cons (Stands.left (Stands.right _ ⟨⟨_, rfl⟩, 0, rfl, ?_⟩)) .nil
        rw [length_stepsBases]
        rfl
      case isFalse => exact .nil
    -- The tracks behind it, whose texts come behind the skip.
    · refine (stands_emitTracks head merge (index + 1) _ hmore).imp fun source i h =>
        Stands.right _ ?_
      rw [List.length_append, length_stepsBases, ← Nat.add_assoc]
      split at h
      case isTrue hskip => rw [if_pos hskip]; exact h
      case isFalse hskip => rw [if_neg hskip]; exact h

end

/-- The instructions of a program are written for the sources of its definition. The start has the
first number, and the end the last one. -/
theorem stands_program (plan : Plan) {steps : List Casework.Step}
    (hplanned : stepsOf keys steps = .ok plan.steps) :
    List.Forall₂ (Stands keys (namingOf plan.names) 0 plan.bases)
      (.start plan.trigger plan.contactRequired :: stepsSources steps ++ [.ending])
        plan.program := by
  have hsteps : List.Forall₂ (Stands keys (namingOf plan.names) 1 (stepsBases plan.steps))
      (stepsSources steps) (emitSteps (namingOf plan.names) 1 plan.ending.id plan.steps) :=
    stands_emitSteps 1 _ hplanned
  have hending : Stands keys (namingOf plan.names) (1 + (stepsBases plan.steps).length)
      ["workflow_end"] .ending plan.ending := by
    refine ⟨rfl, 0, rfl, ?_⟩
    rw [length_stepsBases]
    rfl
  have hrest : List.Forall₂
      (Stands keys (namingOf plan.names) 1 (stepsBases plan.steps ++ ["workflow_end"]))
      (stepsSources steps ++ [.ending])
      (emitSteps (namingOf plan.names) 1 plan.ending.id plan.steps ++ [plan.ending]) :=
    List.rel_append (hsteps.imp fun source i h => h.left) (.cons (hending.right _) .nil)
  exact .cons ⟨rfl, 0, rfl, rfl⟩ (hrest.imp fun source i h => h.right ["trigger_start"])

end Plan

-- ============================================================================
-- The instructions of a program, part by part
-- ============================================================================

/-- The instructions are written for the sources, one for each, in some order. -/
def Source.Pairs (keys : Entries String) (sources : List Source) (instructions : List Instruction) :
    Prop :=
  ∃ order : List Source, order.Perm sources ∧ List.Forall₂ (Source.Writes keys) order instructions

theorem Source.Pairs.length_eq {keys : Entries String} {sources : List Source}
    {instructions : List Instruction} (h : Pairs keys sources instructions) :
    instructions.length = sources.length := by
  obtain ⟨order, hperm, hwrites⟩ := h
  exact hwrites.length_eq.symm.trans hperm.length_eq

namespace Definition

variable {d : Definition} {p : Program}

/-- Each instruction of a program is written for the source in its place. -/
theorem writes_program (h : d.compile = .ok p) :
    List.Forall₂ (Source.Writes (Template.keysOf d.vars)) d.sources p := by
  obtain ⟨steps, hplanned, rfl⟩ := exists_plan_of_compile h
  exact (Plan.stands_program ⟨d.trigger, d.contactRequired, steps⟩ hplanned).imp
    fun source i h => h.1

/-- For each role the instructions that play it are written by the sources that do, in the same
order. -/
theorem writes_filter_plays (h : d.compile = .ok p) (role : Role) :
    List.Forall₂ (Source.Writes (Template.keysOf d.vars)) (d.sources.filter (Source.plays role))
      (p.filter (Instruction.plays role)) := by
  refine List.rel_filter ?_ (writes_program h)
  intro source i hwrites
  simp only [Source.plays, Instruction.plays, hwrites.role_eq]

/-- Nothing is lost or doubled. Besides triggers and conditions a program has one instruction for
each action of the definition, of the type that its kind asks for, and one wait behind the actions
of each step that goes on when a task is completed, in the order in which they are written. And for
each part that can be played it has as many instructions as there are places that need one, each
written for its own. -/
theorem census_of_compile (h : d.compile = .ok p) :
    List.Forall₂ (Source.Writes (Template.keysOf d.vars)) (d.sourcesOf .deed)
        (p.filter fun i => !(["trigger", "condition"].contains i.operation.word)) ∧
      ∀ role, Source.Pairs (Template.keysOf d.vars) (d.sourcesOf role)
        (p.filter (Instruction.plays role)) := by
  refine ⟨?_, fun role => ⟨_, d.filter_sources_perm role, writes_filter_plays h role⟩⟩
  have hdeeds := writes_filter_plays h .deed
  rw [filter_deed_sources] at hdeeds
  have hsame : Instruction.plays .deed =
      fun i => !(["trigger", "condition"].contains i.operation.word) :=
    funext plays_deed
  rwa [hsame] at hdeeds

theorem census_compile_routing : ∃ p, routing.compile = .ok p ∧
    (p.filter fun i => !(["trigger", "condition"].contains i.operation.word)).length = 4 ∧
    [Role.start, .test, .merge, .skip, .anchor, .ending].map
      (fun role => (p.filter (Instruction.plays role)).length) = [1, 2, 2, 1, 1, 1] := by
  obtain ⟨plan, -, hcompile⟩ := compile_of_issues_eq_nil (d := routing) (by decide)
  obtain ⟨hdeeds, hparts⟩ := census_of_compile hcompile
  refine ⟨plan.program, hcompile, hdeeds.length_eq.symm, ?_⟩
  simp only [(hparts _).length_eq]
  rfl

end Definition
end Casework
