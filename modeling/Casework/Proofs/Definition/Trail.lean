/-
  Casework.Proofs.Definition.Trail

  The way from a document to a part of its definition. A step, a track or an action has an address
  in the definition, which names the lists and the positions in them. In the document that the
  definition was read from, the same address leads through the parts that its steps, tracks and
  actions were read from. Checking keeps to these addresses: every issue with the steps of a
  definition was found by the check of one part, and is placed at the address of this part or in a
  field below it.
-/
import Casework.Definition.Validation
import Casework.Proofs.Definition.Reading

namespace Casework

/-- A part of a definition that stands in a list, or the definition as a whole. -/
inductive Node where
  | top (steps : List Step)
  | step (step : Step)
  | track (track : Track)
  | action (action : Action)

namespace Node

-- ============================================================================
-- Addresses
-- ============================================================================

/-- A node has another one in a position of a list. -/
inductive Has : Node → String → Nat → Node → Prop where
  | first {steps : List Step} {step : Step} {k : Nat} (h : steps[k]? = some step) :
      Has (.top steps) "steps" k (.step step)
  | track {head : StepHead} {condition : BranchCondition} {tracks : List Track}
    {track : Track} {k : Nat}
      (h : tracks[k]? = some track) : Has (.step (.branch head condition tracks)) "tracks" k
        (.track track)
  | action {head : StepHead} {actions : List Action} {advancement : Advancement}
    {action : Action} {k : Nat}
      (h : actions[k]? = some action) :
      Has (.step (.standard head actions advancement)) "actions" k (.action action)
  | step {id label : String} {steps : List Step} {step : Step} {k : Nat}
    (h : steps[k]? = some step) :
      Has (.track (.mk id label steps)) "steps" k (.step step)

/-- A node has another one at an address. -/
inductive Below : Node → List Hop → Node → Prop where
  | here (node : Node) : Below node [] node
  | next {node child last : Node} {name : String} {k : Nat} {rest : List Hop}
      (hhas : node.Has name k child) (h : Below child rest last) :
      Below node (.field name :: .item k :: rest) last

/-- A node was read from a part of a document. -/
inductive ReadFrom : Node → Json → Prop where
  | top {fields : Fields} {steps : List Step} (h : Step.AllReadFrom fields.steps steps) :
      ReadFrom (.top steps) (.object fields)
  | step {j : Json} {step : Step} (h : Step.ReadFrom j step) : ReadFrom (.step step) j
  | track {owner : String} {index : Nat} {j : Json} {track : Track}
      (h : Track.ReadFrom owner index j track) : ReadFrom (.track track) j
  | action {j : Json} {action : Action} (h : Action.ReadFrom j action) : ReadFrom (.action action) j

/-- An address leads from a node, and from the document that it was read from, to another node. Each
position on the way selects the part of the document that the node there was read from. -/
inductive Trail : Node → Json → List Hop → Node → Json → Prop where
  | here (node : Node) (j : Json) : Trail node j [] node j
  | next {node child last : Node} {j item part : Json} {name : String} {k : Nat} {rest : List Hop}
      (hhas : node.Has name k child) (hselect : j.follow? [.field name, .item k] = some item)
      (hread : child.ReadFrom item) (h : Trail child item rest last part) :
      Trail node j (.field name :: .item k :: rest) last part

/-- From an object a way leads over a field to an item of the list in it. -/
theorem follow?_item {fields : Fields} {name : String} {items : List Json} {k : Nat} {item : Json}
    (hlist : fields.get? name = some (.list items)) (hitem : items[k]? = some item) :
    (Json.object fields).follow? [.field name, .item k] = some item := by
  simp [Json.follow?, hlist, hitem]

/-- Steps that are there are in the field for steps. -/
theorem get?_of_steps_eq_list {fields : Fields} {items : List Json} {k : Nat} {item : Json}
    (hsteps : fields.steps = .list items) (hitem : items[k]? = some item) :
    fields.get? "steps" = some (.list items) := by
  rw [Entries.steps] at hsteps
  cases hget : fields.get? "steps" with
  | none =>
    rw [hget] at hsteps
    cases hsteps
    cases hitem
  | some value =>
    rw [hget] at hsteps
    exact congrArg some hsteps

/-- Where two lists are as long as each other, a position of one is a position of the other. -/
theorem exists_getElem?_of_length {α β : Type} {xs : List α} {ys : List β} {k : Nat} {y : β}
    (hlength : xs.length = ys.length) (hy : ys[k]? = some y) : ∃ x, xs[k]? = some x := by
  obtain ⟨hk, -⟩ := List.getElem?_eq_some_iff.1 hy
  exact ⟨xs[k], List.getElem?_eq_getElem (hlength ▸ hk)⟩

/-- A step was read from the item at its place. -/
theorem child_of_allReadFrom {fields : Fields} {steps : List Step} {k : Nat} {step : Step}
    (h : Step.AllReadFrom fields.steps steps) (hstep : steps[k]? = some step) :
    ∃ item, (Json.object fields).follow? [.field "steps", .item k] = some item ∧
      Step.ReadFrom item step := by
  generalize hlist : fields.steps = list at h
  cases h with
  | list hlength hall =>
    obtain ⟨item, hitem⟩ := exists_getElem?_of_length hlength hstep
    exact ⟨item, follow?_item (get?_of_steps_eq_list hlist hitem) hitem,
      hall k item step hitem hstep⟩

/-- What a node has was read from the part of the document in the same position. -/
theorem ReadFrom.child {node child : Node} {j : Json} {name : String} {k : Nat}
    (h : node.ReadFrom j)
    (hhas : node.Has name k child) :
    ∃ item, j.follow? [.field name, .item k] = some item ∧ child.ReadFrom item := by
  -- Each part was read from the item of the list that the document has for it, at the same place.
  cases hhas with
  | first hstep =>
    cases h with
    | top hall =>
      obtain ⟨item, hselect, hread⟩ := child_of_allReadFrom hall hstep
      exact ⟨item, hselect, .step hread⟩
  | track htrack =>
    cases h with
    | step hread =>
      cases hread with
      | branch hbranch hcondition htracks hlength hall =>
        obtain ⟨item, hitem⟩ := exists_getElem?_of_length hlength htrack
        have hget := Entries.get?_of_value_eq htracks (by simp)
        exact ⟨item, follow?_item hget hitem, .track (hall k item _ hitem htrack)⟩
  | action haction =>
    cases h with
    | step hread =>
      cases hread with
      | standard hstandard hactions hlength hall =>
        obtain ⟨item, hitem⟩ := exists_getElem?_of_length hlength haction
        have hget := Entries.get?_of_value_eq hactions (by simp)
        exact ⟨item, follow?_item hget hitem, .action (hall k item _ hitem haction)⟩
  | step hstep =>
    cases h with
    | track hread =>
      cases hread with
      | object hall =>
        obtain ⟨item, hselect, hread⟩ := child_of_allReadFrom hall hstep
        exact ⟨item, hselect, .step hread⟩

/-- An address in what was read is one in the document. -/
theorem Below.trail {node last : Node} {way : List Hop} (h : node.Below way last) {j : Json}
    (hread : node.ReadFrom j) : ∃ part, Trail node j way last part := by
  induction h generalizing j with
  | here node => exact ⟨j, .here node j⟩
  | next hhas _ ih =>
    obtain ⟨item, hselect, hchild⟩ := hread.child hhas
    obtain ⟨part, htrail⟩ := ih hchild
    exact ⟨part, .next hhas hselect hchild htrail⟩

end Node

-- ============================================================================
-- The place of an issue
-- ============================================================================

/-- A place is at the end of a way, or in a field below it: no position comes after the way. -/
def Place.PointsAt (place : Place) (way : List Hop) : Prop :=
  ∃ names : List String, place.hops = way ++ names.map .field

namespace Place.PointsAt

variable {way : List Hop} {place : Place}

/-- A place points at the way that leads to it. -/
theorem refl (place : Place) : place.PointsAt place.hops := ⟨[], (List.append_nil _).symm⟩

/-- A place that points at a way still does so with a field below it. -/
theorem field (h : place.PointsAt way) (name : String) : (place.field name).PointsAt way := by
  obtain ⟨names, hhops⟩ := h
  exact ⟨names ++ [name], by simp [Place.field, hhops]⟩

end Place.PointsAt

/-- All issues are at the end of a way, or in fields below it. -/
def PointAt (issues : List Issue) (way : List Hop) : Prop :=
  ∀ issue ∈ issues, issue.place.PointsAt way

namespace PointAt

variable {issues more : List Issue} {way : List Hop}

theorem nil : PointAt [] way := fun _ hmem => absurd hmem List.not_mem_nil

theorem one {issue : Issue} (h : issue.place.PointsAt way) : PointAt [issue] way :=
  fun _ hmem => List.mem_singleton.1 hmem ▸ h

theorem append (h : PointAt issues way) (h' : PointAt more way) : PointAt (issues ++ more) way :=
  fun issue hmem => (List.mem_append.1 hmem).elim (h issue) (h' issue)

theorem ite {p : Prop} [Decidable p] (h : PointAt issues way) (h' : PointAt more way) :
    PointAt (if p then issues else more) way := by
  split
  · exact h
  · exact h'

end PointAt

namespace Validation

-- ============================================================================
-- Checks of one part
-- ============================================================================

section Checks

variable {scope : Scope} {place : Place} {way : List Hop} (h : place.PointsAt way)

include h

theorem pointAt_idIssues {seen : List String} {step action : Option String} {id : String}
    {missing : Problem}
    {duplicate : String → Problem} :
    PointAt (idIssues seen place step action id missing duplicate) way :=
  .ite (.one (h.field _)) (.ite (.one (h.field _)) .nil)

/-- Issues of texts point at the action or trigger that the texts belong to. -/
theorem pointAt_textIssues {s : Subject} {fields : Fields} {names : List String} :
    PointAt (textIssues s place fields names) way := by
  intro issue hmem
  obtain ⟨name, -, hissue⟩ := List.mem_filterMap.1 hmem
  dsimp only at hissue
  split at hissue
  · cases hissue
  · cases hissue
    exact (h.field _).field _

theorem pointAt_listIssues {s : Subject} {value : Json} {label : String} :
    PointAt (listIssues s place value label) way :=
  .ite .nil (.one h)

theorem pointAt_taskIssues {step action : String} {config : Fields} :
    PointAt (taskIssues ⟨place, step, action⟩ config) way := by
  have hconfig := h.field "config"
  refine .append (.append (.append (.append ?_ ?_) ?_) (pointAt_textIssues h))
    (pointAt_listIssues (hconfig.field _))
  all_goals exact .ite .nil (.one (hconfig.field _))

theorem pointAt_notificationIssues {step action : String} {config : Fields} :
    PointAt (notificationIssues ⟨place, step, action⟩ config) way := by
  have hrecipients := (h.field "config").field "recipients"
  refine .append ?_ (pointAt_textIssues h)
  split
  · exact .one hrecipients
  · exact .append (pointAt_textIssues hrecipients) (pointAt_listIssues (hrecipients.field _))

theorem pointAt_statusChangeIssues {step action : String} {config : Fields} :
    PointAt (statusChangeIssues scope ⟨place, step, action⟩ config) way := by
  have hstatus := (h.field "config").field "status"
  exact .ite (.one hstatus) (.ite .nil (.ite .nil (.one hstatus)))

theorem pointAt_configIssues {step action kind : String} {config : Fields} :
    PointAt (configIssues scope ⟨place, step, action⟩ kind config) way := by
  unfold configIssues
  split
  · exact pointAt_taskIssues h
  · exact pointAt_textIssues h
  · exact pointAt_notificationIssues h
  · exact pointAt_statusChangeIssues h

/-- The issues of an action point at the action. -/
theorem pointAt_actionIssues {seen : List String} {step : String} {action : Action} :
    PointAt (actionIssues scope seen place step action) way := by
  refine .append (pointAt_idIssues h)
    (.ite (.append (pointAt_configIssues h) ?_) (.one (h.field _)))
  exact .ite .nil (.one (h.field _))

/-- The issues of a condition for advancing point at its step. -/
theorem pointAt_advancementIssues {step : String} {actions : List Action} {a : Advancement} :
    PointAt (advancementIssues place step actions a) way := by
  have hcondition := h.field "advancementCondition"
  have haction := (hcondition.field "config").field "taskActionId"
  simp only [advancementIssues]
  split
  · exact .nil
  · split
    · exact .ite .nil (.one haction)
    · exact .one haction
    · exact .one haction
  · exact .one (hcondition.field _)

/-- The issues of a condition point at its branch. -/
theorem pointAt_conditionIssues {step : String} {c : BranchCondition} {tracks : Nat} :
    PointAt (conditionIssues place step c tracks) way := by
  have hcondition := h.field "condition"
  simp only [conditionIssues]
  refine .append ?_ (.ite .nil (.one (hcondition.field _)))
  split
  · refine .append (.ite (.one (h.field _)) .nil) ?_
    split
    · exact .one (hcondition.field _)
    · exact .ite (.one (hcondition.field _)) .nil
  · exact .append (.ite (.one (h.field _)) .nil) (.ite .nil (.one (hcondition.field _)))
  · exact .append (.ite (.one (h.field _)) .nil) (.ite .nil (.one (hcondition.field _)))
  · exact .one (hcondition.field _)

end Checks

/-- Checking a node at a place finds an issue with the node itself. -/
inductive Raises (scope : Scope) (place : Place) : Node → Issue → Prop where
  | id {step : Step} {seen : Seen} {issue : Issue}
    (h : issue ∈ stepIdIssues seen place step.head.id) :
      Raises scope place (.step step) issue
  | advancement {head : StepHead} {actions : List Action} {advancement : Advancement}
    {issue : Issue}
      (h : issue ∈ advancementIssues place head.id actions advancement) :
      Raises scope place (.step (.standard head actions advancement)) issue
  | condition {head : StepHead} {condition : BranchCondition} {tracks : List Track} {issue : Issue}
      (h : issue ∈ conditionIssues place head.id condition tracks.length) :
      Raises scope place (.step (.branch head condition tracks)) issue
  | empty {id label step : String} :
      Raises scope place (.track (.mk id label []))
        { problem := .emptyTrack, place := place.field "steps", step }
  | action {action : Action} {seen : List String} {step : String} {issue : Issue}
      (h : issue ∈ actionIssues scope seen place step action) : Raises scope place
        (.action action) issue

/-- An issue with a node is placed at the node or in a field below it. -/
theorem Raises.pointsAt {scope : Scope} {place : Place} {node : Node} {issue : Issue}
    (h : Raises scope place node issue) : issue.place.PointsAt place.hops := by
  have hplace := Place.PointsAt.refl place
  cases h with
  | id h => exact pointAt_idIssues hplace issue h
  | advancement h => exact pointAt_advancementIssues hplace issue h
  | condition h => exact pointAt_conditionIssues hplace issue h
  | empty => exact hplace.field _
  | action h => exact pointAt_actionIssues hplace issue h

-- ============================================================================
-- Checks of all parts
-- ============================================================================

/-- An issue was found by the check of a node at or below another one, done at its address. -/
def Found (scope : Scope) (place : Place) (node : Node) (issue : Issue) : Prop :=
  ∃ way last, node.Below way last ∧ Raises scope ⟨place.hops ++ way⟩ last issue

/-- What a part raises is found there. -/
theorem Found.here {scope : Scope} {place : Place} {node : Node} {issue : Issue}
    (h : Raises scope place node issue) : Found scope place node issue :=
  ⟨[], node, .here node, by rwa [List.append_nil]⟩

/-- What is found in a part below is found from the part above. -/
theorem Found.next {scope : Scope} {place : Place} {node child : Node} {name : String} {k : Nat}
    {issue : Issue} (hhas : node.Has name k child)
    (h : Found scope (place.item name k) child issue) :
    Found scope place node issue := by
  obtain ⟨way, last, hbelow, hraises⟩ := h
  refine ⟨_, last, .next hhas hbelow, ?_⟩
  rwa [Place.item, List.append_assoc] at hraises

/-- An issue of some actions is one of a certain action, with what was seen before it. -/
theorem exists_of_mem_checkActions {scope : Scope} {place : Place} {step : String}
    {seen : List String}
    {index : Nat} {actions : List Action} {issue : Issue}
    (h : issue ∈ (checkActions scope place step seen index actions).1) :
    ∃ (k : Nat) (action : Action) (met : List String), actions[k]? = some action ∧
      issue ∈ actionIssues scope met (place.item "actions" (index + k)) step action := by
  induction actions generalizing seen index with
  | nil => exact absurd h List.not_mem_nil
  | cons action rest ih =>
    rcases List.mem_append.1 h with h | h
    · exact ⟨0, action, seen, rfl, h⟩
    · obtain ⟨k, other, met, hother, hissue⟩ := ih h
      exact ⟨k + 1, other, met, hother, by rwa [Nat.add_right_comm] at hissue⟩

mutual

/-- An issue of a step is raised by the step, or by a part below it, at the place of that part. -/
theorem found_of_mem_checkStep {scope : Scope} {seen : Seen} {place : Place} {step : Step}
    {issue : Issue}
    (h : issue ∈ (checkStep scope seen place step).1) : Found scope place (.step step) issue := by
  cases step with
  | standard head actions advancement =>
    -- A standard step raises issues of its id, of its actions, and of its condition for advancing.
    simp only [checkStep, List.mem_append] at h
    rcases h with (h | h) | h
    · exact .here (.id h)
    · obtain ⟨k, action, met, haction, hissue⟩ := exists_of_mem_checkActions h
      rw [Nat.zero_add] at hissue
      exact .next (.action haction) (.here (.action hissue))
    · exact .here (.advancement h)
  | branch head condition tracks =>
    -- A branch raises issues of its id and of its condition, and else its tracks do.
    simp only [checkStep, List.mem_append] at h
    rcases h with (h | h) | h
    · exact .here (.id h)
    · exact .here (.condition h)
    · obtain ⟨k, track, htrack, hfound⟩ := exists_of_mem_checkTracks h
      rw [Nat.zero_add] at hfound
      exact .next (.track htrack) hfound

/-- An issue of some steps is found at one of them. -/
theorem exists_of_mem_checkSteps {scope : Scope} {seen : Seen} {place : Place} {index : Nat}
    {steps : List Step} {issue : Issue} (h : issue ∈ (checkSteps scope seen place index steps).1) :
    ∃ (k : Nat) (step : Step), steps[k]? = some step ∧
      Found scope (place.item "steps" (index + k)) (.step step) issue := by
  cases steps with
  | nil => exact absurd h List.not_mem_nil
  | cons step rest =>
    simp only [checkSteps, List.mem_append] at h
    rcases h with h | h
    · exact ⟨0, step, rfl, found_of_mem_checkStep h⟩
    · obtain ⟨k, other, hother, hfound⟩ := exists_of_mem_checkSteps h
      exact ⟨k + 1, other, hother, by rwa [Nat.add_right_comm] at hfound⟩

/-- An issue of some tracks is found at one of them. -/
theorem exists_of_mem_checkTracks {scope : Scope} {seen : Seen} {place : Place} {step : String}
    {index : Nat} {tracks : List Track} {issue : Issue}
    (h : issue ∈ (checkTracks scope seen place step index tracks).1) :
    ∃ (k : Nat) (track : Track), tracks[k]? = some track ∧
      Found scope (place.item "tracks" (index + k)) (.track track) issue := by
  match tracks with
  | [] => exact absurd h List.not_mem_nil
  | .mk id label steps :: rest =>
    simp only [checkTracks, List.mem_append] at h
    rcases h with (h | h) | h
    -- The track has no steps, which is the only issue of its own.
    · refine ⟨0, _, rfl, ?_⟩
      cases steps with
      | nil =>
        obtain rfl := List.mem_singleton.1 h
        exact .here .empty
      | cons step rest => exact absurd h List.not_mem_nil
    · obtain ⟨k, inner, hinner, hfound⟩ := exists_of_mem_checkSteps h
      rw [Nat.zero_add] at hfound
      exact ⟨0, _, rfl, .next (.step hinner) hfound⟩
    · obtain ⟨k, other, hother, hfound⟩ := exists_of_mem_checkTracks h
      exact ⟨k + 1, other, hother, by rwa [Nat.add_right_comm] at hfound⟩

end

/-- Every issue with the steps of a definition was found by the check of one part at its address. -/
theorem found_of_mem_steps {scope : Scope} {seen : Seen} {steps : List Step} {issue : Issue}
    (h : issue ∈ (checkSteps scope seen .top 0 steps).1) : Found scope .top (.top steps) issue := by
  obtain ⟨k, step, hstep, hfound⟩ := exists_of_mem_checkSteps h
  rw [Nat.zero_add] at hfound
  exact .next (.first hstep) hfound

end Validation
end Casework
