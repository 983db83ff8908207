/-
  Casework.Proofs.Definition.Reading

  Reading steps is exact. A document is read if its steps conform to the grammar, and then every
  step, track and action of the definition is read from the part of the document that stands in the
  same position. A document that is refused is told of each part that violates the grammar, once.
-/
import Casework.Definition.Reading
import Casework.Proofs.Definition.Grammar

namespace Casework

open Json (Demand Violates)

-- ============================================================================
-- Issues at spots
-- ============================================================================

/-- Issues lie at the spots below a base and have their problems; no two lie at the same place. -/
structure Reports (issues : List Issue) (base : List Hop) (spots : List Hop → Problem → Prop) :
    Prop where
  nodup : (issues.map Issue.place).Nodup
  mem_iff : ∀ place problem,
    (∃ issue ∈ issues, issue.place = place ∧ issue.problem = problem) ↔
      ∃ way, spots way problem ∧ place = ⟨base ++ way⟩

namespace Reports

variable {issues more : List Issue} {base : List Hop} {spots others : List Hop → Problem → Prop}

/-- What is reported depends on which spots there are only. -/
theorem congr (h : Reports issues base spots)
    (hspots : ∀ way problem, spots way problem ↔ others way problem) :
    Reports issues base others :=
  ⟨h.nodup, fun place problem => by simp only [h.mem_iff, hspots]⟩

/-- Nothing is reported where there is no spot. -/
theorem none (hspots : ∀ way problem, ¬ spots way problem) : Reports [] base spots :=
  ⟨List.nodup_nil, fun place problem => by simp [hspots]⟩

/-- An issue that stands at the base reports the one spot there. -/
theorem one {issue : Issue} (hplace : issue.place = ⟨base⟩)
    (hspots : ∀ way problem, spots way problem ↔ way = [] ∧ problem = issue.problem) :
    Reports [issue] base spots := by
  refine ⟨by simp, fun place problem => ?_⟩
  simp only [List.mem_singleton, exists_eq_left, hplace, hspots]
  constructor
  · rintro ⟨rfl, rfl⟩
    exact ⟨[], ⟨rfl, rfl⟩, by rw [List.append_nil]⟩
  · rintro ⟨way, ⟨rfl, rfl⟩, rfl⟩
    exact ⟨by rw [List.append_nil], rfl⟩

/-- Two reports make one if no spot is in both. -/
theorem append (h : Reports issues base spots) (h' : Reports more base others)
    (hdisjoint : ∀ way problem other, spots way problem → ¬ others way other) :
    Reports (issues ++ more) base fun way problem => spots way problem ∨ others way problem := by
  constructor
  · rw [List.map_append, List.nodup_append]
    refine ⟨h.nodup, h'.nodup, ?_⟩
    intro place hmem place' hmem' hsame
    obtain ⟨issue, hissue, hplace⟩ := List.mem_map.1 hmem
    obtain ⟨issue', hissue', hplace'⟩ := List.mem_map.1 hmem'
    obtain ⟨way, hspot, hway⟩ := (h.mem_iff _ _).1 ⟨issue, hissue, hplace, rfl⟩
    obtain ⟨way', hspot', hway'⟩ := (h'.mem_iff _ _).1 ⟨issue', hissue', hplace', rfl⟩
    obtain rfl : way = way' := by
      rw [hway, hway', Place.mk.injEq] at hsame
      exact List.append_cancel_left hsame
    exact hdisjoint _ _ _ hspot hspot'
  · intro place problem
    simp only [List.mem_append, or_and_right, exists_or, h.mem_iff, h'.mem_iff]

/-- What is reported below a hop is reported from above it, with the hop in front. -/
theorem under {hop : Hop} (h : Reports issues (base ++ [hop]) spots) :
    Reports issues base fun way problem => ∃ rest, way = hop :: rest ∧ spots rest problem := by
  refine ⟨h.nodup, fun place problem => ?_⟩
  rw [h.mem_iff]
  constructor
  · rintro ⟨rest, hspot, rfl⟩
    exact ⟨hop :: rest, ⟨rest, rfl, hspot⟩, by rw [List.append_assoc]; rfl⟩
  · rintro ⟨_, ⟨rest, rfl, hspot⟩, rfl⟩
    exact ⟨rest, hspot, by rw [List.append_assoc]; rfl⟩

/-- Issues below two parts. -/
theorem fork {hop hop' : Hop} (h : Reports issues (base ++ [hop]) spots)
    (h' : Reports more (base ++ [hop']) others) (hne : hop ≠ hop') :
    Reports (issues ++ more) base fun way problem =>
      (∃ rest, way = hop :: rest ∧ spots rest problem) ∨
        ∃ rest, way = hop' :: rest ∧ others rest problem := by
  refine h.under.append h'.under ?_
  rintro way _ _ ⟨rest, rfl, -⟩ ⟨rest', hway, -⟩
  exact hne (List.cons.inj hway).1

/-- Issues with the items of a list, each with those at and below its position. -/
theorem items {f : Json × Nat → List Issue} {spotsOf : Json → List Hop → Problem → Prop}
    {list : List Json} (index : Nat)
    (h : ∀ item ∈ list, ∀ k, Reports (f (item, k)) (base ++ [.item k]) (spotsOf item)) :
    Reports ((list.zipIdx index).flatMap f) base fun way problem => ∃ k item rest,
      list[k]? = some item ∧ way = .item (index + k) :: rest ∧ spotsOf item rest problem := by
  induction list generalizing index with
  | nil => exact none (by simp)
  | cons item list ih =>
    have hrest := ih (index + 1) fun other hother => h other (List.mem_cons_of_mem _ hother)
    rw [List.zipIdx_cons, List.flatMap_cons]
    refine ((h item List.mem_cons_self index).under.append hrest ?_).congr fun way problem => ?_
    -- The first item and those behind it are told apart by the number of the item.
    · rintro way problem other ⟨rest, rfl, -⟩ ⟨k, _, _, -, hway, -⟩
      simp only [List.cons.injEq, Hop.item.injEq] at hway
      omega
    · constructor
      · rintro (⟨rest, hway, hspot⟩ | ⟨k, part, rest, hpart, hway, hspot⟩)
        · exact ⟨0, item, rest, rfl, hway, hspot⟩
        · exact ⟨k + 1, part, rest, hpart, by rw [hway]; congr 2; omega, hspot⟩
      · rintro ⟨k, part, rest, hpart, hway, hspot⟩
        cases k with
        | zero =>
          obtain rfl := Option.some.inj hpart
          exact .inl ⟨rest, hway, hspot⟩
        | succ k => exact .inr ⟨k, part, rest, hpart, by rw [hway]; congr 2; omega, hspot⟩

section Demands

variable {demand : Demand} {part : Json}

/-- The issue with a part that is not as it is asked for. -/
theorem unmet {issue : Issue} (hmet : ¬ demand.Met part) (hplace : issue.place = ⟨base⟩)
    (hproblem : issue.problem = demand.problem) : Reports [issue] base (Violates demand part) :=
  one hplace fun way problem => by rw [Json.violates_unmet_iff hmet, hproblem]

/-- No issue with a part that is as it is asked for and has no others. -/
theorem met (hleaf : demand.IsLeaf) (hmet : demand.Met part) :
    Reports [] base (Violates demand part) :=
  none fun _ _ h => ((Json.violates_leaf_iff hleaf).1 h).2.1 hmet

/-- Issues with the items of a list of which the same is asked each. -/
theorem list {each : Demand} (heach : demand.each? = some each) {f : Json × Nat → List Issue}
    {list : List Json}
    (h : ∀ item ∈ list, ∀ k, Reports (f (item, k)) (base ++ [.item k]) (Violates each item)) :
    Reports (list.zipIdx.flatMap f) base (Violates demand (.list list)) :=
  (items 0 h).congr fun way problem => by simp only [Json.violates_list_iff heach, Nat.zero_add]

end Demands

/-- There are issues if there is a spot. -/
theorem eq_nil_iff (h : Reports issues base spots) :
    issues = [] ↔ ∀ way problem, ¬ spots way problem := by
  constructor
  · rintro rfl way problem hspot
    obtain ⟨issue, hissue, -⟩ := (h.mem_iff ⟨base ++ way⟩ problem).2 ⟨way, hspot, rfl⟩
    exact List.not_mem_nil hissue
  · intro hspots
    rw [List.eq_nil_iff_forall_not_mem]
    intro issue hissue
    obtain ⟨way, hspot, -⟩ := (h.mem_iff _ _).1 ⟨issue, hissue, rfl, rfl⟩
    exact hspots _ _ hspot

end Reports

namespace Step

-- ============================================================================
-- Reading item by item
-- ============================================================================

/-- The steps that are read are those of the field for steps. -/
theorem findSteps_eq (place : Place) (fields : List (String × Json)) :
    findSteps place fields = readSteps place "steps" (Entries.steps ⟨fields⟩) := by
  induction fields with
  | nil => rfl
  | cons field rest ih =>
    obtain ⟨name, value⟩ := field
    rw [findSteps, ih, Entries.steps, Entries.steps, Entries.get?, Entries.get?, List.lookup_cons]
    by_cases hname : name = "steps"
    · simp [hname]
    · simp [hname, beq_eq_false_iff_ne.2 (Ne.symm hname)]

/-- The tracks that are read are those of the field for tracks. -/
theorem findTracks_eq (place : Place) (step : String) (fields : List (String × Json)) :
    findTracks place step fields = readTracks place step (Entries.value ⟨fields⟩ "tracks") := by
  induction fields with
  | nil => rfl
  | cons field rest ih =>
    obtain ⟨name, value⟩ := field
    rw [findTracks, ih, Entries.value, Entries.value, Entries.get?, Entries.get?, List.lookup_cons]
    by_cases hname : name = "tracks"
    · simp [hname]
    · simp [hname, beq_eq_false_iff_ne.2 (Ne.symm hname)]

/-- The issues of several steps are those of one after the other. -/
theorem issues_readItems (place : Place) (name : String) (index : Nat) (items : List Json) :
    (readItems place name index items).2 =
      (items.zipIdx index).flatMap fun item => (readStep (place.item name item.2) item.1).2 := by
  induction items generalizing index with
  | nil => rfl
  | cons item rest ih => rw [readItems, List.zipIdx_cons, List.flatMap_cons, ← ih]

/-- The issues of several tracks are those of one after the other. -/
theorem issues_readTrackItems (place : Place) (step : String) (index : Nat) (items : List Json) :
    (readTrackItems place step index items).2 =
      (items.zipIdx index).flatMap fun item =>
        (readTrack (place.item "tracks" item.2) step item.2 item.1).2 := by
  induction items generalizing index with
  | nil => rfl
  | cons item rest ih => rw [readTrackItems, List.zipIdx_cons, List.flatMap_cons, ← ih]

/-- The issue with an item that is no action. -/
def actionShape (place : Place) (step : String) (item : Json × Nat) : List Issue :=
  match item.1 with
  | .object _ => []
  | _ => [issueAt (place.item "actions" item.2) .actionNotObject step]

theorem issues_readActions (place : Place) (step : String) (index : Nat) (items : List Json) :
    (readActions place step index items).2 =
      (items.zipIdx index).flatMap (actionShape place step) := by
  induction items generalizing index with
  | nil => rfl
  | cons item rest ih =>
    rw [List.zipIdx_cons, List.flatMap_cons, ← ih]
    cases item <;> rfl

-- ============================================================================
-- What is reported
-- ============================================================================

/-- Reading the actions reports where the list violates the grammar. -/
theorem reports_readActions (place : Place) (step : String) (items : List Json) :
    Reports (readActions place step 0 items).2 (place.hops ++ [.field "actions"])
      (Violates .actions (.list items)) := by
  rw [issues_readActions]
  refine .list rfl fun item _ k => ?_
  rw [List.append_assoc]
  cases item with
  | object fields => exact .met .action ⟨fields, rfl⟩
  | _ => exact .unmet (by rintro ⟨fields, ⟨⟩⟩) rfl rfl

/-- Reading the condition for advancing reports whether it violates the grammar. -/
theorem reports_readAdvancement (place : Place) (step : String) (j : Json) :
    Reports (readAdvancement place step j).2 (place.hops ++ [.field "advancementCondition"])
      (Violates .advancement j) := by
  cases j with
  | object fields =>
    rw [readAdvancement]
    cases htype : fields.value "type" with
    | text kind => exact .met .advancement ⟨fields, kind, rfl, htype⟩
    | _ =>
      refine .unmet ?_ rfl rfl
      rintro ⟨_, kind, ⟨⟩, hkind⟩
      cases htype.symm.trans hkind
  | _ => exact .unmet (by rintro ⟨fields, kind, ⟨⟩, -⟩) rfl rfl

/-- Reading the condition of a branch reports whether it violates the grammar. -/
theorem reports_readCondition (place : Place) (step : String) (j : Json) :
    Reports (readCondition place step j).2 (place.hops ++ [.field "condition"])
    (Violates .condition j) := by
  cases j with
  | object fields => exact .met .condition ⟨fields, rfl⟩
  | _ => exact .unmet (by rintro ⟨fields, ⟨⟩⟩) rfl rfl

section Standard

variable (place : Place) {fields : Fields}

theorem issues_readStandard_of_list {items : List Json}
    (hactions : fields.value "actions" = .list items) :
    (readStandard place fields).2 =
      (readAdvancement place (headOf fields).id (fields.value "advancementCondition")).2 ++
        (readActions place (headOf fields).id 0 items).2 := by
  simp only [readStandard, hactions, List.nil_append]

theorem issues_readStandard_of_not_list
    (hactions : ¬ ∃ items, fields.value "actions" = .list items) :
    (readStandard place fields).2 =
      issueAt (place.field "actions") .actionsNotList (headOf fields).id ::
        (readAdvancement place (headOf fields).id (fields.value "advancementCondition")).2 := by
  rw [readStandard]
  cases hvalue : fields.value "actions" with
  | list items => exact absurd ⟨items, hvalue⟩ hactions
  | _ => simp only [readActions, List.append_nil, List.singleton_append]

/-- Reading a standard step reports where the step violates the grammar. -/
theorem reports_readStandard (hstandard : ¬ fields.IsBranch) :
    Reports (readStandard place fields).2 place.hops (Violates .step (.object fields)) := by
  have hadvancement :=
    reports_readAdvancement place (headOf fields).id (fields.value "advancementCondition")
  refine .congr ?_ fun way problem => (Json.violates_standard_iff hstandard).symm
  by_cases hactions : ∃ items, fields.value "actions" = .list items
  · obtain ⟨items, hactions⟩ := hactions
    rw [issues_readStandard_of_list place hactions, hactions]
    exact (hadvancement.fork (reports_readActions place _ items) (by simp)).congr
      fun way problem => or_comm
  · rw [issues_readStandard_of_not_list place hactions]
    have hshape : Reports [issueAt (place.field "actions") .actionsNotList (headOf fields).id]
        (place.hops ++ [.field "actions"]) (Violates .actions (fields.value "actions")) :=
      .unmet hactions rfl rfl
    exact hshape.fork hadvancement (by simp)

end Standard

/-- A step is read as a branch if its type is the text for branches. -/
theorem isBranch_iff {fields : Fields} :
    (fields.value "stepType").isTextOf "branch" = true ↔ fields.IsBranch := by
  rw [Entries.IsBranch]
  cases fields.value "stepType" <;> simp [Json.isTextOf, Json.text?]

theorem readStep_branch (place : Place) {fields : Fields} (hbranch : fields.IsBranch) :
    readStep place (.object fields) =
      ( some (.branch (headOf fields)
          (readCondition place (headOf fields).id (fields.value "condition")).1
          (readTracks place (headOf fields).id (fields.value "tracks")).1),
        (readCondition place (headOf fields).id (fields.value "condition")).2 ++
          (readTracks place (headOf fields).id (fields.value "tracks")).2 ) := by
  simp only [readStep, if_pos (isBranch_iff.2 hbranch), findTracks_eq]

theorem readStep_standard (place : Place) {fields : Fields} (hstandard : ¬ fields.IsBranch) :
    readStep place (.object fields) =
      (some (readStandard place fields).1, (readStandard place fields).2) := by
  simp only [readStep, if_neg fun h => hstandard (isBranch_iff.1 h)]

theorem readTrack_object (place : Place) (step : String) (index : Nat) (fields : Fields) :
    readTrack place step index (.object fields) =
      ( some (.mk (trackHead step index fields).1 (trackHead step index fields).2
          (readSteps place "steps" fields.steps).1),
        (readSteps place "steps" fields.steps).2 ) := by
  simp only [readTrack, findSteps_eq]

/-- Reading the tracks reports where they violate the grammar, if reading each of them does. -/
theorem reports_readTracks (place : Place) (step : String) {j : Json}
    (h : ∀ items, j = .list items → ∀ track ∈ items, ∀ place step index,
      Reports (readTrack place step index track).2 place.hops (Violates .track track)) :
    Reports (readTracks place step j).2 (place.hops ++ [.field "tracks"]) (Violates .tracks j) := by
  cases j with
  | list items =>
    rw [readTracks, issues_readTrackItems]
    refine .list rfl fun track hmem k => ?_
    rw [List.append_assoc]
    exact h items rfl track hmem (place.item "tracks" k) step k
  | _ => exact .unmet (by rintro ⟨items, ⟨⟩⟩) rfl rfl

/-- What is reported of steps, of a step and of a track are the parts that violate the grammar at or
below them. -/
theorem reports :
    (∀ j place name, Reports (readSteps place name j).2 (place.hops ++ [.field name])
      (Violates .steps j)) ∧
      (∀ j place, Reports (readStep place j).2 place.hops (Violates .step j)) ∧
      ∀ j place step index, Reports (readTrack place step index j).2 place.hops
      (Violates .track j) := by
  refine Json.steps_induction (fun j ih place name => ?_) (fun j ih place => ?_)
    fun j ih place step index => ?_
  -- Steps, read item by item.
  · cases j with
    | list items =>
      rw [readSteps, issues_readItems]
      refine .list rfl fun item hitem k => ?_
      rw [List.append_assoc]
      exact ih items rfl item hitem (place.item name k)
    | _ => exact .unmet (by rintro ⟨items, ⟨⟩⟩) rfl rfl
  -- A step. Condition and tracks of a branch are reported apart, since they are below different
  -- fields.
  · cases j with
    | object fields =>
      by_cases hbranch : fields.IsBranch
      · rw [readStep_branch place hbranch]
        have hcondition := reports_readCondition place (headOf fields).id (fields.value "condition")
        have htracks := reports_readTracks place (headOf fields).id fun items htracks track hmem =>
          ih fields items rfl htracks track hmem
        exact (hcondition.fork htracks (by simp)).congr fun way problem =>
          (Json.violates_branch_iff hbranch).symm
      · rw [readStep_standard place hbranch]
        exact reports_readStandard place hbranch
    | _ => exact .unmet (by rintro ⟨fields, ⟨⟩⟩) rfl rfl
  -- A track reports what its steps do.
  · cases j with
    | object fields =>
      rw [readTrack_object]
      exact (ih fields rfl place "steps").under.congr fun way problem =>
        Json.violates_track_iff.symm
    | _ => exact .unmet (by rintro ⟨fields, ⟨⟩⟩) rfl rfl

end Step

-- ============================================================================
-- What is read
-- ============================================================================

/-- An action is read from an object. -/
inductive Action.ReadFrom : Json → Action → Prop where
  | object (fields : Fields) : ReadFrom (.object fields)
      { id := (fields.value "id").text?.getD ""
        kind := ((fields.value "type").orElse (.text "")).plain
        config := (fields.value "config").object?.getD .empty }

mutual

/-- Steps are read from a list, each from the item in its position. -/
inductive Step.AllReadFrom : Json → List Step → Prop where
  | list {items : List Json} {steps : List Step} (hlength : items.length = steps.length)
      (hall : ∀ (k : Nat) item step, items[k]? = some item → steps[k]? = some step →
        Step.ReadFrom item step) :
      Step.AllReadFrom (.list items) steps

/-- A step is read from an object: a branch with a track for each item of its tracks, any other step
with an action for each item of its actions. -/
inductive Step.ReadFrom : Json → Step → Prop where
  | branch {fields parts : Fields} {items : List Json} {tracks : List Track}
    (hbranch : fields.IsBranch)
      (hcondition : fields.value "condition" = .object parts)
      (htracks : fields.value "tracks" = .list items) (hlength : items.length = tracks.length)
      (hall : ∀ (k : Nat) item track, items[k]? = some item → tracks[k]? = some track →
        Track.ReadFrom (Step.headOf fields).id k item track) :
      Step.ReadFrom (.object fields) (.branch (Step.headOf fields)
        { variableRef := (parts.value "variableRef").text?.getD ""
          operator := ((parts.value "operator").orElse (.text "")).plain
          compareValue := parts.value "compareValue" } tracks)
  | standard {fields parts : Fields} {items : List Json} {actions : List Action} {kind : String}
      (hstandard : ¬ fields.IsBranch) (hactions : fields.value "actions" = .list items)
      (hlength : items.length = actions.length)
      (hall : ∀ (k : Nat) item action, items[k]? = some item → actions[k]? = some action →
        Action.ReadFrom item action)
      (hadvancement : fields.value "advancementCondition" = .object parts)
      (hkind : parts.value "type" = .text kind) :
      Step.ReadFrom (.object fields) (.standard (Step.headOf fields) actions
        ⟨kind, (parts.value "config").object?.getD .empty⟩)

/-- A track of a step is read from an object in its position. -/
inductive Track.ReadFrom : String → Nat → Json → Track → Prop where
  | object {step : String} {index : Nat} {fields : Fields} {steps : List Step}
      (hsteps : Step.AllReadFrom fields.steps steps) :
      Track.ReadFrom step index (.object fields)
        (.mk (Step.trackHead step index fields).1 (Step.trackHead step index fields).2 steps)

end

/-- If something is read from each item of a list, as much is read as there are items, and in their
order. -/
theorem aligned_filterMap {α : Type} {R : Nat → Json → α → Prop} {f : Json × Nat → Option α}
    {items : List Json} (index : Nat)
    (h : ∀ item ∈ items, ∀ k, ∃ part, f (item, k) = some part ∧ R k item part) :
    items.length = ((items.zipIdx index).filterMap f).length ∧
      ∀ (k : Nat) item part, items[k]? = some item →
        ((items.zipIdx index).filterMap f)[k]? = some part →
        R (index + k) item part := by
  induction items generalizing index with
  | nil => exact ⟨rfl, by rintro k item part ⟨⟩⟩
  | cons item rest ih =>
    obtain ⟨first, hfirst, hrelated⟩ := h item List.mem_cons_self index
    obtain ⟨hlength, hall⟩ :=
      ih (index + 1) fun other hother => h other (List.mem_cons_of_mem _ hother)
    rw [List.zipIdx_cons, List.filterMap_cons_some hfirst]
    refine ⟨congrArg (· + 1) hlength, fun k other part hother hpart => ?_⟩
    cases k with
    | zero =>
      obtain rfl := Option.some.inj hother
      obtain rfl := Option.some.inj hpart
      exact hrelated
    | succ k =>
      have := hall k other part hother hpart
      rwa [Nat.add_right_comm] at this

namespace Step

open Json (Clean)

/-- The steps that are read are those of the items that can be read. -/
theorem parts_readItems (place : Place) (name : String) (index : Nat) (items : List Json) :
    (readItems place name index items).1 =
      (items.zipIdx index).filterMap fun item => (readStep (place.item name item.2) item.1).1 := by
  induction items generalizing index with
  | nil => rfl
  | cons item rest ih =>
    rw [List.zipIdx_cons, List.filterMap_cons, ← ih]
    show (readStep (place.item name index) item).1.toList ++ _ = _
    cases (readStep (place.item name index) item).1 <;> rfl

/-- The tracks that are read are those of the items that can be read. -/
theorem parts_readTrackItems (place : Place) (step : String) (index : Nat) (items : List Json) :
    (readTrackItems place step index items).1 =
      (items.zipIdx index).filterMap fun item =>
        (readTrack (place.item "tracks" item.2) step item.2 item.1).1 := by
  induction items generalizing index with
  | nil => rfl
  | cons item rest ih =>
    rw [List.zipIdx_cons, List.filterMap_cons, ← ih]
    show (readTrack (place.item "tracks" index) step index item).1.toList ++ _ = _
    cases (readTrack (place.item "tracks" index) step index item).1 <;> rfl

/-- If all items are objects, one action is read from each, in the same order. -/
theorem aligned_readActions (place : Place) (step : String) (index : Nat) {items : List Json}
    (h : ∀ item ∈ items, ∃ fields, item = .object fields) :
    items.length = (readActions place step index items).1.length ∧
      ∀ (k : Nat) item action, items[k]? = some item →
        (readActions place step index items).1[k]? = some action → Action.ReadFrom item action := by
  induction items generalizing index with
  | nil => exact ⟨rfl, by rintro k item part ⟨⟩⟩
  | cons item rest ih =>
    obtain ⟨fields, rfl⟩ := h item List.mem_cons_self
    obtain ⟨hlength, hall⟩ := ih (index + 1) fun other hother =>
      h other (List.mem_cons_of_mem _ hother)
    refine ⟨congrArg (· + 1) hlength, fun k other part hother hpart => ?_⟩
    cases k with
    | zero =>
      obtain rfl := Option.some.inj hother
      obtain rfl := Option.some.inj hpart
      exact .object fields
    | succ k => exact hall k other part hother hpart

/-- A clean standard step is read as a step with its parts. -/
theorem readStandard_readFrom (place : Place) {fields : Fields} (hstandard : ¬ fields.IsBranch)
    (hclean : Clean .step (.object fields)) :
    ReadFrom (.object fields) (readStandard place fields).1 := by
  rw [Json.clean_standard_iff hstandard, Json.clean_list_iff rfl,
    Json.clean_leaf_iff .advancement] at hclean
  obtain ⟨⟨items, hactions, hall⟩, parts, kind, hadvancement, hkind⟩ := hclean
  obtain ⟨hlength, hread⟩ := aligned_readActions place (headOf fields).id 0 fun item hmem =>
    (Json.clean_leaf_iff .action).1 (hall item hmem)
  have hstep := ReadFrom.standard hstandard hactions hlength hread hadvancement hkind
  simpa only [readStandard, hactions, readAdvancement, hadvancement, hkind] using hstep

/-- What is read from steps, from a step and from a track that are free of violations. -/
theorem readFrom_of_clean :
    (∀ j place name, Clean .steps j → AllReadFrom j (readSteps place name j).1) ∧
      (∀ j place, Clean .step j → ∃ step, (readStep place j).1 = some step ∧ ReadFrom j step) ∧
      ∀ j place step index, Clean .track j →
        ∃ track, (readTrack place step index j).1 = some track ∧
          Track.ReadFrom step index j track := by
  refine Json.steps_induction (fun j ih place name hclean => ?_) (fun j ih place hclean => ?_)
    fun j ih place step index hclean => ?_
  -- Steps: nothing is dropped, as each item can be read.
  · obtain ⟨items, rfl, hall⟩ := (Json.clean_list_iff rfl).1 hclean
    rw [readSteps, parts_readItems]
    obtain ⟨hlength, hread⟩ := aligned_filterMap (R := fun _ => ReadFrom)
      (f := fun item => (readStep (place.item name item.2) item.1).1) 0 fun item hmem k =>
        ih items rfl item hmem _ (hall item hmem)
    exact .list hlength hread
  -- A step is an object if it is clean, and a branch has a list of tracks.
  · obtain ⟨fields, rfl⟩ := (Json.clean_iff.1 hclean).1
    by_cases hbranch : fields.IsBranch
    · rw [readStep_branch place hbranch]
      rw [Json.clean_branch_iff hbranch, Json.clean_leaf_iff .condition,
        Json.clean_list_iff rfl] at hclean
      obtain ⟨⟨parts, hcondition⟩, items, htracks, hall⟩ := hclean
      refine ⟨_, rfl, ?_⟩
      obtain ⟨hlength, hread⟩ := aligned_filterMap (R := Track.ReadFrom (headOf fields).id)
        (f :=
          fun item => (readTrack (place.item "tracks" item.2) (headOf fields).id item.2 item.1).1)
        0 fun item hmem k => ih fields items rfl htracks item hmem _ _ _ (hall item hmem)
      have hstep := ReadFrom.branch hbranch hcondition htracks hlength (by simpa using hread)
      simpa only [htracks, readTracks, parts_readTrackItems, hcondition, readCondition] using hstep
    · rw [readStep_standard place hbranch]
      exact ⟨_, rfl, readStandard_readFrom place hbranch hclean⟩
  -- A track is an object if it is clean.
  · obtain ⟨fields, rfl, hsteps⟩ := Json.clean_track_iff.1 hclean
    rw [readTrack_object]
    exact ⟨_, rfl, .object (ih fields rfl place "steps" hsteps)⟩

end Step

-- ============================================================================
-- Definitions
-- ============================================================================

namespace Definition

/-- A definition is read if its steps raise no issue, and then has the steps that were read. -/
theorem ofJson_eq_ok_iff {fields : Fields} {d : Definition} :
    ofJson (.object fields) = .ok d ↔ (Step.findSteps .top fields.toList).2 = [] ∧
      ofFields fields (Step.findSteps .top fields.toList).1 = d := by
  rw [ofJson]
  rcases Step.findSteps .top fields.toList with ⟨steps, issues⟩
  cases issues <;> simp

/-- Reading fails with the issues of the steps, if there are any. -/
theorem ofJson_eq_error_iff {fields : Fields} {e : CompileError} :
    ofJson (.object fields) = .error e ↔
      e.issues ≠ [] ∧ (Step.findSteps .top fields.toList).2 = e.issues := by
  rw [ofJson]
  rcases Step.findSteps .top fields.toList with ⟨steps, issues⟩
  obtain ⟨expected⟩ := e
  cases issues <;> cases expected <;> simp

/-- The issues of reading report where the steps violate the grammar. -/
theorem reports_findSteps (fields : Fields) :
    Reports (Step.findSteps .top fields.toList).2 [.field "steps"]
    (Violates .steps fields.steps) := by
  rw [Step.findSteps_eq]
  exact Step.reports.1 fields.steps .top "steps"

/-- Reading raises no issue exactly if the steps have the form that the grammar gives. -/
theorem issues_eq_nil_iff_isSteps (fields : Fields) :
    (Step.findSteps .top fields.toList).2 = [] ↔ fields.steps.IsSteps := by
  rw [(reports_findSteps fields).eq_nil_iff, Json.isSteps_iff_clean, Json.Clean]

/-- The steps of a definition that was read are those of its document. -/
theorem allReadFrom_of_ofJson {fields : Fields} {d : Definition}
    (h : ofJson (.object fields) = .ok d) :
    Step.AllReadFrom fields.steps d.steps := by
  obtain ⟨hissues, rfl⟩ := ofJson_eq_ok_iff.1 h
  have hclean := Json.isSteps_iff_clean.1 ((issues_eq_nil_iff_isSteps fields).1 hissues)
  rw [Step.findSteps_eq]
  exact Step.readFrom_of_clean.1 fields.steps .top "steps" hclean

theorem reports_of_ofJson {fields : Fields} {e : CompileError}
    (h : ofJson (.object fields) = .error e) :
    Reports e.issues [.field "steps"] (Violates .steps fields.steps) := by
  rw [← (ofJson_eq_error_iff.1 h).2]
  exact reports_findSteps fields

/-- An object is read as a definition exactly if its steps conform to the grammar. The steps of the
definition are then read part by part from those of the object. The issues of an object that is
refused are one for each part that violates the grammar, at its place. -/
theorem ofJson_object_exact (fields : Fields) :
    ((∃ d, ofJson (.object fields) = .ok d) ↔ fields.steps.IsSteps) ∧
      (∀ d, ofJson (.object fields) = .ok d → Step.AllReadFrom fields.steps d.steps) ∧
      ∀ e, ofJson (.object fields) = .error e →
        (∀ issue ∈ e.issues, issue.problem.code = "invalid_shape") ∧
          Reports e.issues [.field "steps"] (Violates .steps fields.steps) := by
  refine ⟨?_, fun d => allReadFrom_of_ofJson, fun e hrefused => ?_⟩
  · rw [← issues_eq_nil_iff_isSteps]
    constructor
    · rintro ⟨d, hread⟩
      exact (ofJson_eq_ok_iff.1 hread).1
    · exact fun hissues => ⟨_, ofJson_eq_ok_iff.2 ⟨hissues, rfl⟩⟩
  · have hreports := reports_of_ofJson hrefused
    refine ⟨fun issue hissue => ?_, hreports⟩
    obtain ⟨way, ⟨demand, part, -, -, hproblem⟩, -⟩ :=
      (hreports.mem_iff _ _).1 ⟨issue, hissue, rfl, rfl⟩
    rw [hproblem]
    cases demand <;> rfl

/-- Reading goes on after an issue: what is wrong inside a part is found though another one is
missing. -/
example :
    ofJson (.obj [("steps", .list [.null, .obj [("stepType", .text "branch"),
      ("tracks", .list [.obj [("steps", .int 1)]])]])]) =
      .error ⟨[
        { problem := .stepNotObject, place := Place.top.item "steps" 0 },
        { problem := .noBranchCondition
          place := (Place.top.item "steps" 1).field "condition", step := some "" },
        { problem := .stepsNotList
          place := ((Place.top.item "steps" 1).item "tracks" 0).field "steps" }]⟩ := by
  rfl

end Definition
end Casework
