/-
  Casework.Proofs.Definition.Standards

  The standard steps of a definition, wherever they stand: at the top, or in the tracks of branches.
  Checking a definition checks each of them.
-/
import Casework.Definition.Validation

namespace Casework

/-- A standard step. -/
structure StandardStep where
  head : StepHead
  actions : List Action
  advancement : Advancement

mutual

/-- The standard steps at or below a step. -/
def Step.standards : Step → List StandardStep
  | .standard head actions advancement => [⟨head, actions, advancement⟩]
  | .branch _ _ tracks => tracksStandards tracks

/-- The standard steps among steps and below them. -/
def stepsStandards : List Step → List StandardStep
  | [] => []
  | step :: rest => step.standards ++ stepsStandards rest

/-- The standard steps of tracks. -/
def tracksStandards : List Track → List StandardStep
  | [] => []
  | .mk _ _ steps :: rest => stepsStandards steps ++ tracksStandards rest

end

namespace Validation

/-- No issue was found with a standard step, wherever it was checked. -/
def Passes (scope : Scope) (s : StandardStep) : Prop :=
  ∃ seen place, (checkActions scope place s.head.id seen 0 s.actions).1 = [] ∧
    advancementIssues place s.head.id s.actions s.advancement = []

mutual

/-- All standard steps within a step that is checked without issues pass the check. -/
theorem passes_checkStep {scope : Scope} {seen : Seen} {place : Place} {step : Step}
    (h : (checkStep scope seen place step).1 = []) : ∀ s ∈ step.standards, Passes scope s := by
  cases step with
  | standard head actions advancement =>
    simp only [checkStep, List.append_eq_nil_iff] at h
    intro s hs
    obtain rfl := List.mem_singleton.1 hs
    exact ⟨_, _, h.1.2, h.2⟩
  | branch head condition tracks =>
    simp only [checkStep, List.append_eq_nil_iff] at h
    exact passes_checkTracks h.2

theorem passes_checkSteps {scope : Scope} {seen : Seen} {place : Place} {index : Nat}
    {steps : List Step} (h : (checkSteps scope seen place index steps).1 = []) :
    ∀ s ∈ stepsStandards steps, Passes scope s := by
  cases steps with
  | nil => exact fun s hs => absurd hs List.not_mem_nil
  | cons step rest =>
    simp only [checkSteps, List.append_eq_nil_iff] at h
    intro s hs
    rcases List.mem_append.1 hs with hs | hs
    · exact passes_checkStep h.1 s hs
    · exact passes_checkSteps h.2 s hs

theorem passes_checkTracks {scope : Scope} {seen : Seen} {place : Place} {step : String}
    {index : Nat} {tracks : List Track}
    (h : (checkTracks scope seen place step index tracks).1 = []) :
    ∀ s ∈ tracksStandards tracks, Passes scope s := by
  match tracks with
  | [] => exact fun s hs => absurd hs List.not_mem_nil
  | .mk id label steps :: rest =>
    simp only [checkTracks, List.append_eq_nil_iff] at h
    intro s hs
    rcases List.mem_append.1 hs with hs | hs
    · exact passes_checkSteps h.1.2 s hs
    · exact passes_checkTracks h.2 s hs

end

end Validation

/-- The standard steps of a definition without issues pass their checks. -/
theorem Definition.passes_of_issues {d : Definition} (h : d.issues = []) :
    ∀ s ∈ stepsStandards d.steps, Validation.Passes (Validation.Scope.of d) s := by
  rw [Definition.issues, List.append_eq_nil_iff] at h
  exact Validation.passes_checkSteps h.2

end Casework
