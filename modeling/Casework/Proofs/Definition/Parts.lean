/-
  Casework.Proofs.Definition.Parts

  The steps and the actions of a definition without issues are told apart by their ids. Checking
  carries the ids met so far: each check adds the ids of the part it goes through, and finds no
  issue only if none of them was met before.
-/
import Casework.Definition.Validation
import Mathlib.Data.List.Nodup
import Mathlib.Data.List.Perm.Basic

namespace Casework

/-- A part of a definition that has an id of its own. -/
inductive Part where
  | action (id : String)
  | step (id : String)
  deriving DecidableEq, Repr

-- ============================================================================
-- The parts of a definition
-- ============================================================================

mutual

/-- A step and all steps and actions below it. -/
def Step.parts : Step → List Part
  | .standard head actions _ => actions.map (fun action => .action action.id) ++ [.step head.id]
  | .branch head _ tracks => .step head.id :: tracksParts tracks

/-- Steps and all steps and actions below them. -/
def stepsParts : List Step → List Part
  | [] => []
  | step :: rest => step.parts ++ stepsParts rest

/-- The steps and actions of tracks. -/
def tracksParts : List Track → List Part
  | [] => []
  | .mk _ _ steps :: rest => stepsParts steps ++ tracksParts rest

end

namespace Validation

-- ============================================================================
-- Parts that were met
-- ============================================================================

/-- A part was met. -/
def Seen.Has (seen : Seen) : Part → Prop
  | .action id => id ∈ seen.actions
  | .step id => id ∈ seen.steps

/-- Some parts differ from each other and from all that were met, and are met afterwards. -/
structure Meets (seen seen' : Seen) (parts : List Part) : Prop where
  nodup : parts.Nodup
  fresh : ∀ part ∈ parts, ¬ seen.Has part
  has_iff : ∀ part, seen'.Has part ↔ seen.Has part ∨ part ∈ parts

namespace Meets

variable {seen seen' seen'' : Seen} {parts more : List Part}

/-- No parts are met, and what was seen stays. -/
theorem nil (seen : Seen) : Meets seen seen [] :=
  ⟨List.nodup_nil, by simp, by simp⟩

/-- Parts are met one after the other. -/
theorem append (h : Meets seen seen' parts) (h' : Meets seen' seen'' more) :
    Meets seen seen'' (parts ++ more) where
  nodup := by
    refine List.nodup_append.2 ⟨h.nodup, h'.nodup, ?_⟩
    rintro part hpart _ hmore rfl
    exact h'.fresh part hmore ((h.has_iff part).2 (Or.inr hpart))
  fresh part hpart := by
    rcases List.mem_append.1 hpart with hpart | hpart
    · exact h.fresh part hpart
    · exact fun hseen => h'.fresh part hpart ((h.has_iff part).2 (Or.inl hseen))
  has_iff part := by rw [h'.has_iff, h.has_iff, List.mem_append, or_assoc]

/-- The order in which parts are met makes no difference. -/
theorem perm (h : Meets seen seen' parts) (hperm : parts.Perm more) : Meets seen seen' more where
  nodup := hperm.nodup_iff.1 h.nodup
  fresh part hpart := h.fresh part (hperm.mem_iff.2 hpart)
  has_iff part := by rw [h.has_iff, hperm.mem_iff]

end Meets

/-- An id without an issue is met for the first time. -/
theorem meet_of_idIssues {seen : List String} {place : Place} {step action : Option String}
    {id : String} {missing : Problem} {duplicate : String → Problem}
    (h : idIssues seen place step action id missing duplicate = []) :
    id ∉ seen ∧ meet seen id = id :: seen := by
  rw [idIssues] at h
  by_cases hblank : Text.isBlankText id
  · simp [hblank] at h
  · by_cases hseen : seen.contains id
    · simp only [if_neg hblank, if_pos hseen] at h
      cases h
    · have hfresh : id ∉ seen := by simpa using hseen
      exact ⟨hfresh, by simp [meet, hblank, hfresh]⟩

/-- A step whose id raises no issue was not seen before, and is seen from then on. -/
theorem meets_step {seen : Seen} {place : Place} {id : String}
    (h : stepIdIssues seen place id = []) :
    Meets seen ⟨meet seen.steps id, seen.actions⟩ [.step id] := by
  obtain ⟨hfresh, hmeet⟩ := meet_of_idIssues h
  rw [hmeet]
  refine ⟨List.nodup_singleton _, by simpa [Seen.Has] using hfresh, fun part => ?_⟩
  cases part with
  | action other => simp [Seen.Has]
  | step other => simp [Seen.Has, or_comm]

/-- An action without issues was not seen before, and is seen from then on. -/
theorem meets_action {scope : Scope} {seen : Seen} {place : Place} {step : String}
    {action : Action} (h : actionIssues scope seen.actions place step action = []) :
    Meets seen ⟨seen.steps, meet seen.actions action.id⟩ [.action action.id] := by
  obtain ⟨hfresh, hmeet⟩ := meet_of_idIssues (List.append_eq_nil_iff.1 h).1
  rw [hmeet]
  refine ⟨List.nodup_singleton _, by simpa [Seen.Has] using hfresh, fun part => ?_⟩
  cases part with
  | action other => simp [Seen.Has, or_comm]
  | step other => simp [Seen.Has]

/-- Actions that are checked without issues are met, each for the first time. -/
theorem meets_actions {scope : Scope} {seen : Seen} {place : Place} {step : String} {index : Nat}
    {actions : List Action}
    (h : (checkActions scope place step seen.actions index actions).1 = []) :
    Meets seen ⟨seen.steps, (checkActions scope place step seen.actions index actions).2⟩
      (actions.map fun action => .action action.id) := by
  induction actions generalizing seen index with
  | nil => exact .nil seen
  | cons action rest ih =>
    rw [checkActions, List.append_eq_nil_iff] at h
    have hrest : Meets ⟨seen.steps, meet seen.actions action.id⟩ _ _ := ih h.2
    exact (meets_action h.1).append hrest

-- ============================================================================
-- Steps
-- ============================================================================

mutual

/-- A step that is checked without issues, and all that is below it, is met for the first time. -/
theorem meets_checkStep {scope : Scope} {seen : Seen} {place : Place} {step : Step}
    (h : (checkStep scope seen place step).1 = []) :
    Meets seen (checkStep scope seen place step).2 step.parts := by
  cases step with
  | standard head actions advancement =>
    simp only [checkStep, List.append_eq_nil_iff] at h
    obtain ⟨⟨hid, hactions⟩, -⟩ := h
    have hmeets := (meets_step hid).append (meets_actions hactions)
    exact hmeets.perm (List.perm_append_comm)
  | branch head condition tracks =>
    simp only [checkStep, List.append_eq_nil_iff] at h
    obtain ⟨⟨hid, -⟩, htracks⟩ := h
    exact (meets_step hid).append (meets_checkTracks htracks)

theorem meets_checkSteps {scope : Scope} {seen : Seen} {place : Place} {index : Nat}
    {steps : List Step} (h : (checkSteps scope seen place index steps).1 = []) :
    Meets seen (checkSteps scope seen place index steps).2 (stepsParts steps) := by
  cases steps with
  | nil => exact .nil seen
  | cons step rest =>
    simp only [checkSteps, List.append_eq_nil_iff] at h
    exact (meets_checkStep h.1).append (meets_checkSteps h.2)

theorem meets_checkTracks {scope : Scope} {seen : Seen} {place : Place} {step : String}
    {index : Nat} {tracks : List Track}
    (h : (checkTracks scope seen place step index tracks).1 = []) :
    Meets seen (checkTracks scope seen place step index tracks).2 (tracksParts tracks) := by
  match tracks with
  | [] => exact .nil seen
  | .mk id label steps :: rest =>
    simp only [checkTracks, List.append_eq_nil_iff] at h
    exact (meets_checkSteps h.1.2).append (meets_checkTracks h.2)

end

end Validation

/-- No two steps and no two actions of a definition without issues have the same id. -/
theorem Definition.nodup_parts {d : Definition} (h : d.issues = []) :
    (stepsParts d.steps).Nodup := by
  rw [Definition.issues, List.append_eq_nil_iff] at h
  exact (Validation.meets_checkSteps h.2).nodup

end Casework
