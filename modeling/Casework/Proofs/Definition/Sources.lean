/-
  Casework.Proofs.Definition.Sources

  What the instructions of a program are written for. Actions and waits are deeds; a standard step
  without any has an anchor in their place. A branch has a test before its tracks and a merge behind
  them, and a track that another one follows is left by a skip, unless it ends in a branch. Here
  only the definition is read: the sources are listed in the order in which a program has its
  instructions, and then counted.
-/
import Casework.Proofs.Definition.Standards
import Mathlib.Data.List.Forall2
import Mathlib.Data.List.Perm.Basic

namespace Casework

-- ============================================================================
-- The branch steps of a definition
-- ============================================================================

/-- A branch step. -/
structure BranchStep where
  head : StepHead
  condition : BranchCondition
  tracks : List Track

mutual

/-- The branch steps at or below a step. -/
def Step.branches : Step → List BranchStep
  | .standard .. => []
  | .branch head condition tracks => ⟨head, condition, tracks⟩ :: tracksBranches tracks

/-- The branch steps among steps and below them. -/
def stepsBranches : List Step → List BranchStep
  | [] => []
  | step :: rest => step.branches ++ stepsBranches rest

/-- The branch steps below tracks. -/
def tracksBranches : List Track → List BranchStep
  | [] => []
  | .mk _ _ steps :: rest => stepsBranches steps ++ tracksBranches rest

end

/-- The branch steps of a definition, at any depth. -/
def Definition.branches (d : Definition) : List BranchStep := stepsBranches d.steps

/-- The standard steps of a definition, at any depth. -/
def Definition.standards (d : Definition) : List StandardStep := stepsStandards d.steps

/-- Whether the last of some steps is a standard one. -/
def lastIsStandard (steps : List Step) : Bool := steps.getLast?.any Step.isStandard

-- ============================================================================
-- Sources
-- ============================================================================

/-- What an instruction is written for. Actions and skips tell their position in the step. -/
inductive Source where
  | start (trigger : Trigger) (contactRequired : Bool)
  | action (head : StepHead) (index : Nat) (action : Action)
  | wait (head : StepHead)
  | anchor (head : StepHead)
  | test (branch : BranchStep)
  | skip (head : StepHead) (index : Nat)
  | merge (head : StepHead)
  | ending

/-- The part that an instruction plays in a program. -/
inductive Role where
  | start
  | deed
  | anchor
  | test
  | skip
  | merge
  | ending
  deriving DecidableEq, Repr

namespace Source

/-- The part that is played for a source. -/
def role : Source → Role
  | .start .. => .start
  | .action .. => .deed
  | .wait _ => .deed
  | .anchor _ => .anchor
  | .test _ => .test
  | .skip .. => .skip
  | .merge _ => .merge
  | .ending => .ending

/-- Whether a source plays a part. -/
def plays (role : Role) (source : Source) : Bool := source.role == role

/-- The id that a source suggests. -/
def base : Source → String
  | .start .. => "trigger_start"
  | .action head index authored =>
    if authored.id == "" then head.id ++ "__action_" ++ toString (index + 1) else authored.id
  | .wait head => head.id ++ "__wait_task"
  | .anchor head => head.id ++ "__anchor"
  | .test branch => branch.head.id ++ "__condition"
  | .skip head index => head.id ++ "__skip_track_" ++ toString (index + 1)
  | .merge head => head.id ++ "__merge"
  | .ending => "workflow_end"

end Source

namespace StandardStep

/-- The actions of a step. -/
def doings (s : StandardStep) : List Source :=
  s.actions.zipIdx.map fun (action, index) => .action s.head index action

/-- The deeds of a step: its actions, and the wait of a step that goes on when a task is
completed. -/
def deeds (s : StandardStep) : List Source :=
  s.doings ++ if s.advancement.kind == "when_task_completed" then [.wait s.head] else []

/-- What a step is lowered to: its deeds, or an anchor if it has none. -/
def sources (s : StandardStep) : List Source :=
  if s.deeds.isEmpty then [.anchor s.head] else s.deeds

end StandardStep

namespace BranchStep

/-- The skips of a branch: one for each track but the last that ends in a standard step. -/
def skips (b : BranchStep) : List Source :=
  (b.tracks.zipIdx.dropLast.filter fun (track, _) => lastIsStandard track.steps).map
    fun (_, index) => .skip b.head index

/-- What a branch has besides its tracks. -/
def sources (b : BranchStep) : List Source := .test b :: (b.skips ++ [.merge b.head])

end BranchStep

mutual

/-- The sources of a step, in the order of their instructions. -/
def Step.sources : Step → List Source
  | .standard head actions advancement => StandardStep.sources ⟨head, actions, advancement⟩
  | .branch head condition tracks =>
    .test ⟨head, condition, tracks⟩ :: tracksSources head 0 tracks ++ [.merge head]

/-- The sources of steps. -/
def stepsSources : List Step → List Source
  | [] => []
  | step :: rest => step.sources ++ stepsSources rest

/-- The sources of tracks from position `index` on. -/
def tracksSources (head : StepHead) (index : Nat) : List Track → List Source
  | [] => []
  | .mk _ _ steps :: rest =>
    stepsSources steps ++
      (if !rest.isEmpty && lastIsStandard steps then [.skip head index] else []) ++
      tracksSources head (index + 1) rest

end

/-- The sources of a definition. -/
def Definition.sources (d : Definition) : List Source :=
  .start d.trigger d.contactRequired :: stepsSources d.steps ++ [.ending]

-- ============================================================================
-- Deeds in order
-- ============================================================================

/-- The deeds of a step are sources of deeds. -/
theorem StandardStep.plays_of_mem_deeds {s : StandardStep} {source : Source}
    (h : source ∈ s.deeds) :
    source.plays .deed := by
  rcases List.mem_append.1 h with haction | hwait
  · obtain ⟨_, -, rfl⟩ := List.mem_map.1 haction
    rfl
  · split at hwait
    case isTrue =>
      obtain rfl := List.mem_singleton.1 hwait
      rfl
    case isFalse => cases hwait

/-- Of all sources of a step its deeds are those of deeds; an anchor stands only where there is no
deed. -/
theorem StandardStep.filter_deed_sources (s : StandardStep) :
    s.sources.filter (Source.plays .deed) = s.deeds := by
  have hall : s.deeds.filter (Source.plays .deed) = s.deeds :=
    List.filter_eq_self.2 fun source => s.plays_of_mem_deeds
  rw [sources]
  split
  case isTrue hnone => rw [List.isEmpty_iff.1 hnone]; rfl
  case isFalse => exact hall

mutual

/-- The deeds of a step stand in the order in which they are written. -/
theorem filter_deed_stepSources (step : Step) :
    step.sources.filter (Source.plays .deed) = step.standards.flatMap StandardStep.deeds := by
  cases step with
  | standard head actions advancement =>
    rw [Step.sources, Step.standards, StandardStep.filter_deed_sources, List.flatMap_singleton]
  | branch head condition tracks =>
    have hmerge : [Source.merge head].filter (Source.plays .deed) = [] := rfl
    rw [Step.sources, Step.standards, List.filter_append,
      List.filter_cons_of_neg Bool.false_ne_true,
      hmerge, List.append_nil]
    exact filter_deed_tracksSources head 0 tracks

/-- The sources of deeds among steps are the deeds of the standard steps, in the order of these. -/
theorem filter_deed_stepsSources (steps : List Step) :
    (stepsSources steps).filter (Source.plays .deed) =
      (stepsStandards steps).flatMap StandardStep.deeds := by
  cases steps with
  | nil => rfl
  | cons step rest =>
    rw [stepsSources, stepsStandards, List.filter_append, List.flatMap_append,
      filter_deed_stepSources, filter_deed_stepsSources]

theorem filter_deed_tracksSources (head : StepHead) (index : Nat) (tracks : List Track) :
    (tracksSources head index tracks).filter (Source.plays .deed) =
      (tracksStandards tracks).flatMap StandardStep.deeds := by
  match tracks with
  | [] => rfl
  | .mk id label steps :: rest =>
    have hskip : (if !rest.isEmpty && lastIsStandard steps then [Source.skip head index]
      else []).filter
        (Source.plays .deed) = [] := by
      split <;> rfl
    rw [tracksSources, tracksStandards, List.filter_append, List.filter_append, hskip,
      List.append_nil,
      List.flatMap_append, filter_deed_stepsSources, filter_deed_tracksSources]

end

-- ============================================================================
-- All sources in some order
-- ============================================================================

/-- The sources of standard steps and of branch steps. -/
def allSources (standards : List StandardStep) (branches : List BranchStep) : List Source :=
  standards.flatMap StandardStep.sources ++ branches.flatMap BranchStep.sources

/-- The skips of tracks from position `index` on. -/
def tracksSkips (head : StepHead) (index : Nat) (tracks : List Track) : List Source :=
  ((tracks.zipIdx index).dropLast.filter fun (track, _) => lastIsStandard track.steps).map
    fun (_, index) => .skip head index

theorem tracksSkips_cons (head : StepHead) (index : Nat) (id label : String) (steps : List Step)
    (rest : List Track) :
    tracksSkips head index (.mk id label steps :: rest) =
      (if !rest.isEmpty && lastIsStandard steps then [.skip head index] else []) ++
        tracksSkips head (index + 1) rest := by
  cases rest with
  | nil => rfl
  | cons next more =>
    have hmore : ((next :: more).zipIdx (index + 1)) ≠ [] := by simp
    rw [tracksSkips, List.zipIdx_cons, List.dropLast_cons_of_ne_nil hmore, List.filter_cons]
    cases hends : lastIsStandard steps <;> simp [Track.steps, hends, tracksSkips]

open scoped Classical in
mutual

/-- Nothing but the standard steps and the branch steps at or below a step is a source. -/
theorem count_stepSources (source : Source) (step : Step) :
    step.sources.count source = (allSources step.standards step.branches).count source := by
  cases step with
  | standard head actions advancement =>
    rw [Step.sources, Step.standards, Step.branches, allSources, List.flatMap_singleton,
      List.flatMap_nil, List.append_nil]
  | branch head condition tracks =>
    have htracks := count_tracksSources source head 0 tracks
    have hskips : BranchStep.skips ⟨head, condition, tracks⟩ = tracksSkips head 0 tracks := rfl
    simp only [Step.sources, Step.standards, Step.branches, BranchStep.sources, hskips, allSources,
      List.flatMap_cons, List.count_append, List.count_cons] at htracks ⊢
    omega

/-- Steps have every source as often as their standard steps and branches, taken one after the
other, have it. -/
theorem count_stepsSources (source : Source) (steps : List Step) :
    (stepsSources steps).count source =
      (allSources (stepsStandards steps) (stepsBranches steps)).count source := by
  cases steps with
  | nil => rfl
  | cons step rest =>
    have hstep := count_stepSources source step
    have hrest := count_stepsSources source rest
    simp only [stepsSources, stepsStandards, stepsBranches, allSources, List.flatMap_append,
      List.count_append] at hstep hrest ⊢
    omega

/-- Between the sources of the steps of tracks stand the skips. -/
theorem count_tracksSources (source : Source) (head : StepHead) (index : Nat)
    (tracks : List Track) :
    (tracksSources head index tracks).count source = (tracksSkips head index tracks).count source +
      (allSources (tracksStandards tracks) (tracksBranches tracks)).count source := by
  match tracks with
  | [] => rfl
  | .mk id label steps :: rest =>
    have hsteps := count_stepsSources source steps
    have hrest := count_tracksSources source head (index + 1) rest
    simp only [tracksSources, tracksStandards, tracksBranches, tracksSkips_cons, allSources,
      List.flatMap_append, List.count_append] at hsteps hrest ⊢
    omega

end

/-- The sources of a definition are its start, its standard steps with what they are lowered to, its
branch steps with their tests, skips and merges, and its end. -/
theorem Definition.sources_perm (d : Definition) :
    d.sources.Perm
      (.start d.trigger d.contactRequired :: allSources d.standards d.branches ++ [.ending]) := by
  classical
  have hsteps : (stepsSources d.steps).Perm (allSources d.standards d.branches) :=
    List.perm_iff_count.2 fun source => count_stepsSources source d.steps
  exact (hsteps.append_right _).cons _

-- ============================================================================
-- Sources by the part they play
-- ============================================================================

namespace StandardStep

theorem filter_sources (s : StandardStep) (role : Role) :
    s.sources.filter (Source.plays role) =
      match role with
      | .deed => s.deeds
      | .anchor => if s.deeds.isEmpty then [.anchor s.head] else []
      | _ => [] := by
  -- The anchor is there only if there are no deeds, so for each role one of the two is left.
  by_cases hrole : role = .deed
  · subst hrole
    exact s.filter_deed_sources
  · have hdeeds : s.deeds.filter (Source.plays role) = [] := by
      rw [List.filter_eq_nil_iff]
      intro source hsource hplays
      have hdeed := beq_iff_eq.1 (s.plays_of_mem_deeds hsource)
      exact hrole ((beq_iff_eq.1 hplays).symm.trans hdeed)
    rw [sources]
    split
    case isTrue => cases role <;> first | rfl | exact absurd rfl hrole
    case isFalse => rw [hdeeds]; cases role <;> first | rfl | exact absurd rfl hrole

end StandardStep

namespace BranchStep

/-- The skips of a branch play the role of skips only. -/
theorem filter_skips (b : BranchStep) (role : Role) :
    b.skips.filter (Source.plays role) = if role = .skip then b.skips else [] := by
  have hskips : ∀ source ∈ b.skips, source.role = .skip := by
    intro source hsource
    obtain ⟨_, -, rfl⟩ := List.mem_map.1 hsource
    rfl
  split
  case isTrue hrole =>
    exact List.filter_eq_self.2 fun source hsource =>
      beq_iff_eq.2 ((hskips source hsource).trans hrole.symm)
  case isFalse hrole =>
    exact List.filter_eq_nil_iff.2 fun source hsource hplays =>
      hrole ((beq_iff_eq.1 hplays).symm.trans (hskips source hsource))

theorem filter_sources (b : BranchStep) (role : Role) :
    b.sources.filter (Source.plays role) =
      match role with
      | .test => [.test b]
      | .skip => b.skips
      | .merge => [.merge b.head]
      | _ => [] := by
  rw [sources, List.filter_cons, List.filter_append, filter_skips]
  cases role <;> simp [Source.plays, Source.role]

end BranchStep

/-- What a program of the definition has to have for each part: a deed for every action of a
standard step and for every wait, an anchor for every standard step without deeds, a test and a
merge for every branch step with the skips of its tracks, one start and one end. -/
def Definition.sourcesOf (d : Definition) : Role → List Source
  | .start => [.start d.trigger d.contactRequired]
  | .deed => d.standards.flatMap StandardStep.deeds
  | .anchor => (d.standards.filter fun s => s.deeds.isEmpty).map fun s => .anchor s.head
  | .test => d.branches.map .test
  | .skip => d.branches.flatMap BranchStep.skips
  | .merge => d.branches.map fun b => .merge b.head
  | .ending => [.ending]

namespace Definition

/-- The deeds come in the order in which they are written. -/
theorem filter_deed_sources (d : Definition) :
    d.sources.filter (Source.plays .deed) = d.sourcesOf .deed := by
  have hending : [Source.ending].filter (Source.plays .deed) = [] := rfl
  rw [sources, List.filter_append, List.filter_cons_of_neg Bool.false_ne_true, hending,
    List.append_nil,
    filter_deed_stepsSources]
  rfl

theorem filter_allSources (d : Definition) (role : Role) :
    (allSources d.standards d.branches).filter (Source.plays role) =
      match role with
      | .start => []
      | .ending => []
      | role => d.sourcesOf role := by
  -- At most one anchor comes from each step, so to go through the steps is to pick those without
  -- deeds.
  have hanchors : d.standards.flatMap (fun s =>
    if s.deeds.isEmpty then [Source.anchor s.head] else []) =
      (d.standards.filter fun s => s.deeds.isEmpty).map fun s => .anchor s.head := by
    induction d.standards with
    | nil => rfl
    | cons s rest ih =>
      rw [List.flatMap_cons, ih, List.filter_cons]
      split <;> rfl
  have hstandards : d.standards.flatMap (fun _ => ([] : List Source)) = [] := by simp
  have hbranches : d.branches.flatMap (fun _ => ([] : List Source)) = [] := by simp
  rw [allSources, List.filter_append, List.filter_flatMap, List.filter_flatMap]
  simp only [StandardStep.filter_sources, BranchStep.filter_sources]
  -- Role by role: standard steps give deeds and anchors, branches give the rest.
  cases role with
  | start => rw [hstandards, hbranches]; rfl
  | deed => rw [hbranches, List.append_nil]; rfl
  | anchor => rw [hanchors, hbranches, List.append_nil]; rfl
  | test => rw [hstandards, List.nil_append]; exact List.map_eq_flatMap.symm
  | skip => rw [hstandards, List.nil_append]; rfl
  | merge => rw [hstandards, List.nil_append]; exact List.map_eq_flatMap.symm
  | ending => rw [hstandards, hbranches]; rfl

/-- The sources that play a part are those that a program has to have for it. -/
theorem filter_sources_perm (d : Definition) (role : Role) :
    (d.sources.filter (Source.plays role)).Perm (d.sourcesOf role) := by
  refine (d.sources_perm.filter _).trans (List.Perm.of_eq ?_)
  rw [List.filter_append, List.filter_cons, filter_allSources]
  cases role <;> simp [Source.plays, Source.role, sourcesOf]

end Definition
end Casework
