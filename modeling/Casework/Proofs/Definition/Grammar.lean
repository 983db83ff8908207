/-
  Casework.Proofs.Definition.Grammar

  The grammar of the steps of a document. It is said twice: as a predicate on the whole document,
  and as what is asked of each of its parts, which is enough to tell where a document violates the
  grammar. A part is asked for even if one above it, or beside it, is not as it should be. A
  document conforms to the grammar exactly if no part violates it.
-/
import Casework.Definition.Issue
import Mathlib.Tactic.ByContra

namespace Casework

/-- The fields are those of a branch step. -/
def Entries.IsBranch (fields : Fields) : Prop := fields.value "stepType" = .text "branch"

/-- The steps among the fields of a definition or of a track, none when the field is absent. -/
def Entries.steps (fields : Fields) : Json := (fields.get? "steps").getD (.list [])

/-- A field whose value is not null is there. -/
theorem Entries.get?_of_value_eq {fields : Fields} {name : String} {j : Json}
    (h : fields.value name = j) (hj : j ≠ .null) : fields.get? name = some j := by
  rw [value] at h
  cases hget : fields.get? name with
  | none => exact absurd (by rw [← h, hget]; rfl) hj
  | some found => rw [← h, hget]; rfl

namespace Json

-- ============================================================================
-- Conforming documents
-- ============================================================================

mutual

/-- A list of steps. -/
inductive IsSteps : Json → Prop where
  | list {items : List Json} (hitems : ∀ item ∈ items, IsStep item) : IsSteps (.list items)

/-- A step. A branch has a condition, which is an object, and a list of tracks. Any other step has a
list of actions, which are objects, and a condition for going on, which is an object with a text as
its type. -/
inductive IsStep : Json → Prop where
  | branch {fields condition : Fields} {tracks : List Json} (hbranch : fields.IsBranch)
      (hcondition : fields.value "condition" = .object condition)
      (htracks : fields.value "tracks" = .list tracks)
      (hall : ∀ track ∈ tracks, IsTrack track) : IsStep (.object fields)
  | standard {fields advancement : Fields} {actions : List Json} {kind : String}
      (hstandard : ¬ fields.IsBranch) (hactions : fields.value "actions" = .list actions)
      (hall : ∀ action ∈ actions, ∃ parts, action = .object parts)
      (hadvancement : fields.value "advancementCondition" = .object advancement)
      (hkind : advancement.value "type" = .text kind) : IsStep (.object fields)

/-- A track, which is an object that may have steps. -/
inductive IsTrack : Json → Prop where
  | object {fields : Fields} (hsteps : IsSteps fields.steps) : IsTrack (.object fields)

end

-- ============================================================================
-- What is asked of a part
-- ============================================================================

/-- What the grammar can ask of a part of a document. -/
inductive Demand where
  | steps
  | step
  | condition
  | tracks
  | track
  | actions
  | advancement
  | action
  deriving DecidableEq, Repr

/-- A part is as it is asked for; what is below it does not matter. -/
def Demand.Met (demand : Demand) (part : Json) : Prop :=
  match demand with
  | .steps | .tracks | .actions => ∃ items, part = .list items
  | .step | .condition | .track | .action => ∃ fields, part = .object fields
  | .advancement => ∃ fields kind, part = .object fields ∧ fields.value "type" = .text kind

/-- The problem of a part that is not as it is asked for. -/
def Demand.problem : Demand → Problem
  | .steps => .stepsNotList
  | .step => .stepNotObject
  | .condition => .noBranchCondition
  | .tracks => .tracksNotList
  | .track => .trackNotObject
  | .actions => .actionsNotList
  | .advancement => .noAdvancement
  | .action => .actionNotObject

/-- What is asked of each item of a list. -/
def Demand.each? : Demand → Option Demand
  | .steps => some .step
  | .tracks => some .track
  | .actions => some .action
  | .step | .condition | .track | .advancement | .action => none

/-- Where the first demand is made of the first part, the other one is made of the part at the end
of one hop. An absent field is asked for as null, but for steps, which need not be there. -/
inductive Has : Demand → Json → Hop → Demand → Json → Prop where
  | item {demand other : Demand} {items : List Json} {part : Json} {k : Nat}
      (heach : demand.each? = some other) (hpart : items[k]? = some part) :
      Has demand (.list items) (.item k) other part
  | condition {fields : Fields} (hbranch : fields.IsBranch) :
      Has .step (.object fields) (.field "condition") .condition (fields.value "condition")
  | tracks {fields : Fields} (hbranch : fields.IsBranch) :
      Has .step (.object fields) (.field "tracks") .tracks (fields.value "tracks")
  | actions {fields : Fields} (hstandard : ¬ fields.IsBranch) :
      Has .step (.object fields) (.field "actions") .actions (fields.value "actions")
  | advancement {fields : Fields} (hstandard : ¬ fields.IsBranch) :
      Has .step (.object fields) (.field "advancementCondition") .advancement
        (fields.value "advancementCondition")
  | steps {fields : Fields} : Has .track (.object fields) (.field "steps") .steps fields.steps

/-- Where the first demand is made of the first part, the other one is made of the part at the end
of a way. -/
inductive Asks : Demand → Json → List Hop → Demand → Json → Prop where
  | here (demand : Demand) (part : Json) : Asks demand part [] demand part
  | next {demand other last : Demand} {part beyond below : Json} {hop : Hop} {way : List Hop}
      (hhas : Has demand part hop other beyond) (h : Asks other beyond way last below) :
      Asks demand part (hop :: way) last below

/-- Below a part of which something is asked, a part at the end of a way violates the grammar. -/
def Violates (demand : Demand) (part : Json) (way : List Hop) (problem : Problem) : Prop :=
  ∃ other below, Asks demand part way other below ∧ ¬ other.Met below ∧ problem = other.problem

-- ============================================================================
-- Induction on the parts
-- ============================================================================

/-- A value of an object is smaller than the object. -/
theorem sizeOf_lt_of_get? {fields : Fields} {name : String} {j : Json}
    (h : fields.get? name = some j) : sizeOf j < sizeOf (Json.object fields) := by
  obtain ⟨pairs⟩ := fields
  obtain ⟨before, after, rfl, -⟩ := List.lookup_eq_some_iff.1 h
  have hpair := List.sizeOf_lt_of_mem
    (show (name, j) ∈ before ++ (name, j) :: after from List.mem_append_right _ List.mem_cons_self)
  simp only [Prod.mk.sizeOf_spec] at hpair
  simp only [Json.object.sizeOf_spec, Entries.mk.sizeOf_spec]
  omega

/-- The parts at which steps, a step and a track stand have these parts in turn: the items of steps,
the tracks of a step, and the steps of a track. -/
theorem steps_induction {steps step track : Json → Prop}
    (hsteps : ∀ j, (∀ items, j = .list items → ∀ item ∈ items, step item) → steps j)
    (hstep : ∀ j, (∀ fields tracks, j = .object fields → fields.value "tracks" = .list tracks →
      ∀ item ∈ tracks, track item) → step j)
    (htrack : ∀ j, (∀ fields, j = .object fields → steps fields.steps) → track j) :
    (∀ j, steps j) ∧ (∀ j, step j) ∧ ∀ j, track j := by
  have hnone : steps (.list []) := hsteps _ fun items hitems => by cases hitems; simp
  -- All three at once, by induction on a bound for the size of the part: steps, step and track call
  -- on one another for smaller parts.
  suffices h : ∀ n j, sizeOf j < n → steps j ∧ step j ∧ track j by
    exact ⟨fun j => (h _ j (Nat.lt_succ_self _)).1, fun j => (h _ j (Nat.lt_succ_self _)).2.1,
      fun j => (h _ j (Nat.lt_succ_self _)).2.2⟩
  intro n
  induction n with
  | zero => exact fun j hj => absurd hj (Nat.not_lt_zero _)
  | succ n ih =>
    intro j hj
    refine ⟨hsteps j ?_, hstep j ?_, htrack j ?_⟩
    · rintro items rfl item hitem
      have hlt := List.sizeOf_lt_of_mem hitem
      simp only [Json.list.sizeOf_spec] at hj
      exact (ih item (by omega)).2.1
    · rintro fields tracks rfl htracks item hitem
      have hlt := List.sizeOf_lt_of_mem hitem
      have hfield := sizeOf_lt_of_get? (Entries.get?_of_value_eq htracks (by simp))
      simp only [Json.list.sizeOf_spec] at hfield
      exact (ih item (by omega)).2.2
    · rintro fields rfl
      -- Steps that are missing are read as an empty list, which is no part of the track.
      rw [Entries.steps]
      cases hget : fields.get? "steps" with
      | none => exact hnone
      | some value =>
        have hfield := sizeOf_lt_of_get? hget
        exact (ih value (by omega)).1

-- ============================================================================
-- Conforming and violating
-- ============================================================================

theorem Demand.met_iff_of_each? {demand other : Demand} (heach : demand.each? = some other)
    {part : Json} :
    demand.Met part ↔ ∃ items, part = .list items := by
  cases demand <;> first | rfl | cases heach

/-- What has parts is itself as it is asked for. -/
theorem Has.met {demand other : Demand} {part next : Json} {hop : Hop}
    (h : Has demand part hop other next) : demand.Met part := by
  cases h with
  | item heach => exact (Demand.met_iff_of_each? heach).2 ⟨_, rfl⟩
  | _ => exact ⟨_, rfl⟩

section Parts

variable {demand other : Demand} {fields : Fields} {hop : Hop} {next : Json}

/-- A list has its items. -/
theorem has_list_iff {items : List Json} {each : Demand} (heach : demand.each? = some each) :
    Has demand (.list items) hop other next ↔
      ∃ k, hop = .item k ∧ other = each ∧ items[k]? = some next := by
  constructor
  · intro h
    cases h with
    | item heach' hpart => exact ⟨_, rfl, Option.some.inj (heach'.symm.trans heach), hpart⟩
  · rintro ⟨k, rfl, rfl, hpart⟩
    exact .item heach hpart

/-- A branch has a condition and tracks. -/
theorem has_branch_iff (hbranch : fields.IsBranch) :
    Has .step (.object fields) hop other next ↔
      hop = .field "condition" ∧ other = .condition ∧ next = fields.value "condition" ∨
      hop = .field "tracks" ∧ other = .tracks ∧ next = fields.value "tracks" := by
  constructor
  · intro h
    cases h with
    | condition => exact .inl ⟨rfl, rfl, rfl⟩
    | tracks => exact .inr ⟨rfl, rfl, rfl⟩
    | actions hstandard => exact absurd hbranch hstandard
    | advancement hstandard => exact absurd hbranch hstandard
  · rintro (⟨rfl, rfl, rfl⟩ | ⟨rfl, rfl, rfl⟩)
    · exact .condition hbranch
    · exact .tracks hbranch

/-- Any other step has actions and a condition for going on. -/
theorem has_standard_iff (hstandard : ¬ fields.IsBranch) :
    Has .step (.object fields) hop other next ↔
      hop = .field "actions" ∧ other = .actions ∧ next = fields.value "actions" ∨
      hop = .field "advancementCondition" ∧ other = .advancement ∧
        next = fields.value "advancementCondition" := by
  constructor
  · intro h
    cases h with
    | condition hbranch => exact absurd hbranch hstandard
    | tracks hbranch => exact absurd hbranch hstandard
    | actions => exact .inl ⟨rfl, rfl, rfl⟩
    | advancement => exact .inr ⟨rfl, rfl, rfl⟩
  · rintro (⟨rfl, rfl, rfl⟩ | ⟨rfl, rfl, rfl⟩)
    · exact .actions hstandard
    · exact .advancement hstandard

/-- A track has steps. -/
theorem has_track_iff :
    Has .track (.object fields) hop other next ↔
      hop = .field "steps" ∧ other = .steps ∧ next = fields.steps := by
  constructor
  · rintro ⟨⟩
    exact ⟨rfl, rfl, rfl⟩
  · rintro ⟨rfl, rfl, rfl⟩
    exact .steps

/-- A demand that is made of a part alone, not of others that it has. -/
inductive Demand.IsLeaf : Demand → Prop where
  | condition : IsLeaf .condition
  | advancement : IsLeaf .advancement
  | action : IsLeaf .action

theorem Demand.IsLeaf.not_has {part : Json} (hleaf : demand.IsLeaf) :
    ¬ Has demand part hop other next := by
  intro h
  cases hleaf <;> cases h with | item heach => cases heach

end Parts

-- ============================================================================
-- Violations of parts
-- ============================================================================

section Violations

variable {demand : Demand} {part : Json} {fields : Fields} {way : List Hop} {problem : Problem}

/-- A part violates the grammar itself, or one that it has does. -/
theorem violates_iff :
    Violates demand part way problem ↔
      way = [] ∧ ¬ demand.Met part ∧ problem = demand.problem ∨
      ∃ hop rest other next, way = hop :: rest ∧ Has demand part hop other next ∧
        Violates other next rest problem := by
  constructor
  · rintro ⟨last, below, hasks, hviolates⟩
    cases hasks with
    | here => exact .inl ⟨rfl, hviolates⟩
    | next hhas h => exact .inr ⟨_, _, _, _, rfl, hhas, last, below, h, hviolates⟩
  · rintro (⟨rfl, hviolates⟩ | ⟨hop, rest, other, next, rfl, hhas, last, below, h, hviolates⟩)
    · exact ⟨_, _, .here _ _, hviolates⟩
    · exact ⟨_, _, .next hhas h, hviolates⟩

/-- Nothing is asked below a part that is not as it is asked for. -/
theorem violates_unmet_iff (hmet : ¬ demand.Met part) :
    Violates demand part way problem ↔ way = [] ∧ problem = demand.problem := by
  rw [violates_iff]
  constructor
  · rintro (⟨hway, -, hproblem⟩ | ⟨_, _, _, _, -, hhas, -⟩)
    · exact ⟨hway, hproblem⟩
    · exact absurd hhas.met hmet
  · exact fun ⟨hway, hproblem⟩ => .inl ⟨hway, hmet, hproblem⟩

/-- A part that is as it is asked for violates the grammar where one that it has does. -/
theorem violates_met_iff (hmet : demand.Met part) :
    Violates demand part way problem ↔ ∃ hop rest other next,
      way = hop :: rest ∧ Has demand part hop other next ∧ Violates other next rest problem := by
  rw [violates_iff]
  exact or_iff_right fun h => h.2.1 hmet

/-- A list violates a demand for lists where one of its items violates the demand on each. -/
theorem violates_list_iff {items : List Json} {each : Demand} (heach : demand.each? = some each) :
    Violates demand (.list items) way problem ↔
      ∃ k item rest, items[k]? = some item ∧ way = .item k :: rest ∧
        Violates each item rest problem := by
  rw [violates_met_iff ((Demand.met_iff_of_each? heach).2 ⟨items, rfl⟩)]
  simp only [has_list_iff heach]
  constructor
  · rintro ⟨_, rest, _, item, hway, ⟨k, rfl, rfl, hitem⟩, h⟩
    exact ⟨k, item, rest, hitem, hway, h⟩
  · rintro ⟨k, item, rest, hitem, hway, h⟩
    exact ⟨_, rest, _, item, hway, ⟨k, rfl, rfl, hitem⟩, h⟩

/-- A branch violates the grammar at its condition or below its tracks. -/
theorem violates_branch_iff (hbranch : fields.IsBranch) :
    Violates .step (.object fields) way problem ↔
      (∃ rest, way = .field "condition" :: rest ∧
        Violates .condition (fields.value "condition") rest problem) ∨
      ∃ rest, way = .field "tracks" :: rest ∧
        Violates .tracks (fields.value "tracks") rest problem := by
  rw [violates_met_iff (show Demand.Met .step (.object fields) from ⟨fields, rfl⟩)]
  simp only [has_branch_iff hbranch]
  constructor
  · rintro ⟨_, rest, _, _, hway, ⟨rfl, rfl, rfl⟩ | ⟨rfl, rfl, rfl⟩, h⟩
    · exact .inl ⟨rest, hway, h⟩
    · exact .inr ⟨rest, hway, h⟩
  · rintro (⟨rest, hway, h⟩ | ⟨rest, hway, h⟩)
    · exact ⟨_, rest, _, _, hway, .inl ⟨rfl, rfl, rfl⟩, h⟩
    · exact ⟨_, rest, _, _, hway, .inr ⟨rfl, rfl, rfl⟩, h⟩

/-- A standard step violates the grammar below its actions or at its condition for advancing. -/
theorem violates_standard_iff (hstandard : ¬ fields.IsBranch) :
    Violates .step (.object fields) way problem ↔
      (∃ rest, way = .field "actions" :: rest ∧
        Violates .actions (fields.value "actions") rest problem) ∨
      ∃ rest, way = .field "advancementCondition" :: rest ∧
        Violates .advancement (fields.value "advancementCondition") rest problem := by
  rw [violates_met_iff (show Demand.Met .step (.object fields) from ⟨fields, rfl⟩)]
  simp only [has_standard_iff hstandard]
  constructor
  · rintro ⟨_, rest, _, _, hway, ⟨rfl, rfl, rfl⟩ | ⟨rfl, rfl, rfl⟩, h⟩
    · exact .inl ⟨rest, hway, h⟩
    · exact .inr ⟨rest, hway, h⟩
  · rintro (⟨rest, hway, h⟩ | ⟨rest, hway, h⟩)
    · exact ⟨_, rest, _, _, hway, .inl ⟨rfl, rfl, rfl⟩, h⟩
    · exact ⟨_, rest, _, _, hway, .inr ⟨rfl, rfl, rfl⟩, h⟩

/-- A track that is an object violates the grammar below its steps. -/
theorem violates_track_iff :
    Violates .track (.object fields) way problem ↔
      ∃ rest, way = .field "steps" :: rest ∧ Violates .steps fields.steps rest problem := by
  rw [violates_met_iff (show Demand.Met .track (.object fields) from ⟨fields, rfl⟩)]
  simp only [has_track_iff]
  constructor
  · rintro ⟨_, rest, _, _, hway, ⟨rfl, rfl, rfl⟩, h⟩
    exact ⟨rest, hway, h⟩
  · rintro ⟨rest, hway, h⟩
    exact ⟨_, rest, _, _, hway, ⟨rfl, rfl, rfl⟩, h⟩

/-- A part that nothing is asked of below it can violate a demand only itself. -/
theorem violates_leaf_iff (hleaf : demand.IsLeaf) :
    Violates demand part way problem ↔ way = [] ∧ ¬ demand.Met part ∧ problem = demand.problem := by
  rw [violates_iff]
  exact or_iff_left fun ⟨_, _, _, _, _, hhas, _⟩ => hleaf.not_has hhas

end Violations

-- ============================================================================
-- Conforming means free of violations
-- ============================================================================

/-- Nothing violates the grammar at or below a part. -/
def Clean (demand : Demand) (part : Json) : Prop :=
  ∀ way problem, ¬ Violates demand part way problem

section Clean

variable {demand : Demand} {part : Json} {fields : Fields}

/-- A part is clean if it is what is demanded, and all parts below it are clean. -/
theorem clean_iff :
    Clean demand part ↔
      demand.Met part ∧ ∀ hop other next, Has demand part hop other next → Clean other next := by
  constructor
  · intro h
    refine ⟨?_, fun hop other next hhas rest problem hviolates => ?_⟩
    · by_contra hmet
      exact h [] _ (violates_iff.2 (.inl ⟨rfl, hmet, rfl⟩))
    · exact h _ _ (violates_iff.2 (.inr ⟨hop, rest, other, next, rfl, hhas, hviolates⟩))
  · rintro ⟨hmet, hclean⟩ way problem hviolates
    obtain ⟨hop, rest, other, next, -, hhas, h⟩ := (violates_met_iff hmet).1 hviolates
    exact hclean hop other next hhas rest problem h

theorem clean_list_iff {each : Demand} (heach : demand.each? = some each) :
    Clean demand part ↔ ∃ items, part = .list items ∧ ∀ item ∈ items, Clean each item := by
  rw [clean_iff, Demand.met_iff_of_each? heach]
  constructor
  · rintro ⟨⟨items, rfl⟩, hclean⟩
    refine ⟨items, rfl, fun item hmem => ?_⟩
    obtain ⟨k, hitem⟩ := List.mem_iff_getElem?.1 hmem
    exact hclean _ _ _ (.item heach hitem)
  · rintro ⟨items, rfl, hclean⟩
    refine ⟨⟨items, rfl⟩, fun hop other next hhas => ?_⟩
    obtain ⟨k, -, rfl, hitem⟩ := (has_list_iff heach).1 hhas
    exact hclean next (List.mem_of_getElem? hitem)

theorem clean_leaf_iff (hleaf : demand.IsLeaf) : Clean demand part ↔ demand.Met part := by
  rw [clean_iff]
  exact and_iff_left fun hop other next hhas => absurd hhas hleaf.not_has

theorem clean_track_iff :
    Clean .track part ↔ ∃ fields, part = .object fields ∧ Clean .steps fields.steps := by
  rw [clean_iff]
  constructor
  · rintro ⟨⟨fields, rfl⟩, hclean⟩
    exact ⟨fields, rfl, hclean _ _ _ .steps⟩
  · rintro ⟨fields, rfl, hclean⟩
    refine ⟨⟨fields, rfl⟩, fun hop other next hhas => ?_⟩
    obtain ⟨-, rfl, rfl⟩ := has_track_iff.1 hhas
    exact hclean

/-- A branch is clean if its condition and its tracks are. -/
theorem clean_branch_iff (hbranch : fields.IsBranch) :
    Clean .step (.object fields) ↔
      Clean .condition (fields.value "condition") ∧ Clean .tracks (fields.value "tracks") := by
  rw [clean_iff]
  constructor
  · rintro ⟨-, hclean⟩
    exact ⟨hclean _ _ _ (.condition hbranch), hclean _ _ _ (.tracks hbranch)⟩
  · rintro ⟨hcondition, htracks⟩
    refine ⟨⟨fields, rfl⟩, fun hop other next hhas => ?_⟩
    obtain ⟨-, rfl, rfl⟩ | ⟨-, rfl, rfl⟩ := (has_branch_iff hbranch).1 hhas
    · exact hcondition
    · exact htracks

/-- A standard step is clean if its actions and its condition for advancing are. -/
theorem clean_standard_iff (hstandard : ¬ fields.IsBranch) :
    Clean .step (.object fields) ↔
      Clean .actions (fields.value "actions") ∧
        Clean .advancement (fields.value "advancementCondition") := by
  rw [clean_iff]
  constructor
  · rintro ⟨-, hclean⟩
    exact ⟨hclean _ _ _ (.actions hstandard), hclean _ _ _ (.advancement hstandard)⟩
  · rintro ⟨hactions, hadvancement⟩
    refine ⟨⟨fields, rfl⟩, fun hop other next hhas => ?_⟩
    obtain ⟨-, rfl, rfl⟩ | ⟨-, rfl, rfl⟩ := (has_standard_iff hstandard).1 hhas
    · exact hactions
    · exact hadvancement

end Clean

/-- A document conforms to the grammar exactly if nothing in it violates the grammar. -/
theorem conforms_iff_clean :
    (∀ j, IsSteps j ↔ Clean .steps j) ∧ (∀ j, IsStep j ↔ Clean .step j) ∧
      ∀ j, IsTrack j ↔ Clean .track j := by
  refine steps_induction (fun j ih => ?_) (fun j ih => ?_) fun j ih => ?_
  -- Steps: a list of which each item is a step.
  · rw [clean_list_iff rfl]
    constructor
    · rintro ⟨hitems⟩
      exact ⟨_, rfl, fun item hmem => (ih _ rfl item hmem).1 (hitems item hmem)⟩
    · rintro ⟨items, rfl, hclean⟩
      exact .list fun item hmem => (ih items rfl item hmem).2 (hclean item hmem)
  -- A step: a branch or a standard step, as its type says.
  · constructor
    · intro h
      cases h with
      | branch hbranch hcondition htracks hall =>
        rw [clean_branch_iff hbranch, clean_leaf_iff .condition, clean_list_iff rfl]
        exact ⟨⟨_, hcondition⟩, _, htracks, fun track hmem =>
          (ih _ _ rfl htracks track hmem).1 (hall track hmem)⟩
      | standard hstandard hactions hall hadvancement hkind =>
        rw [clean_standard_iff hstandard, clean_leaf_iff .advancement, clean_list_iff rfl]
        exact ⟨⟨_, hactions, fun action hmem => (clean_leaf_iff .action).2 (hall action hmem)⟩,
          _, _, hadvancement, hkind⟩
    · intro h
      obtain ⟨fields, rfl⟩ := (clean_iff.1 h).1
      by_cases hbranch : fields.IsBranch
      · rw [clean_branch_iff hbranch, clean_leaf_iff .condition, clean_list_iff rfl] at h
        obtain ⟨⟨condition, hcondition⟩, tracks, htracks, hall⟩ := h
        exact .branch hbranch hcondition htracks fun track hmem =>
          (ih _ _ rfl htracks track hmem).2 (hall track hmem)
      · rw [clean_standard_iff hbranch, clean_leaf_iff .advancement, clean_list_iff rfl] at h
        obtain ⟨⟨actions, hactions, hall⟩, advancement, kind, hadvancement, hkind⟩ := h
        exact .standard hbranch hactions
          (fun action hmem => (clean_leaf_iff .action).1 (hall action hmem))
          hadvancement hkind
  -- A track: an object with steps.
  · rw [clean_track_iff]
    constructor
    · rintro ⟨hsteps⟩
      exact ⟨_, rfl, (ih _ rfl).1 hsteps⟩
    · rintro ⟨fields, rfl, hclean⟩
      exact .object ((ih fields rfl).2 hclean)

/-- Steps have the form that the grammar gives exactly if nothing in them violates it. -/
theorem isSteps_iff_clean {j : Json} : IsSteps j ↔ Clean .steps j := conforms_iff_clean.1 j

end Json
end Casework
