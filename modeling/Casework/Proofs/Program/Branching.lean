/-
  Casework.Proofs.Program.Branching

  Where the branches of a definition stand in its program, and which of their tracks can be taken. A
  branch is its test, the instructions of its tracks one track after the other, and its merge. For a
  text the test goes to the first instruction of the track that the condition chooses, and to no
  other track, since no two instructions have the same id. Every track is chosen for some text, but
  for those whose value stands for an earlier track as well; and where the field names a variable,
  the variable can have that text. A field that only begins and ends with double braces need not
  name one.
-/
import Casework.Proofs.Program.Census
import Casework.Proofs.Program.Choice
import Casework.Proofs.Template.BranchField
import Mathlib.Data.List.Forall2

namespace Casework

open Result

theorem exists_getElem?_of_forall₂ {α β : Type} {R : α → β → Prop} {items : List α}
    {others : List β}
    (h : List.Forall₂ R items others) {k : Nat} {other : β} (hother : others[k]? = some other) :
    ∃ item, items[k]? = some item ∧ R item other := by
  obtain ⟨hlt, rfl⟩ := List.getElem?_eq_some_iff.1 hother
  have hlt' : k < items.length := h.length_eq ▸ hlt
  exact ⟨items[k], List.getElem?_eq_getElem hlt', h.get hlt' hlt⟩

-- ============================================================================
-- The instructions of each track
-- ============================================================================

/-- The instructions of a track: those that are written for its steps, and behind them the skip if
there is one. -/
def Track.WrittenAs (keys : Entries String) (head : StepHead) (track : Track)
    (code : List Instruction) :
    Prop :=
  ∃ skips : List Source, (skips = [] ∨ ∃ index, skips = [.skip head index]) ∧
    List.Forall₂ (Source.Writes keys) (stepsSources track.steps ++ skips) code

namespace Plan

variable {p : Program} {keys : Entries String} {ids : Naming}

/-- The instructions of each track, the tracks numbered from `n` on and going on to `merge`. -/
def trackCodes (ids : Naming) (head : StepHead) (merge : String) (n : Nat) :
    List Track → List (List Instruction)
  | [] => []
  | .mk _ steps :: rest =>
    (emitSteps ids n merge steps ++
      if skips steps rest then
        [instruction head (ids (n + stepsSize steps)) "Skip to Merge" (.goto merge)]
      else []) ::
      trackCodes ids head merge (n + stepsSize steps + (if skips steps rest then 1 else 0)) rest

/-- The codes of the tracks, one behind the other, are the instructions of all tracks. -/
theorem flatten_trackCodes (head : StepHead) (merge : String) (n : Nat) (tracks : List Track) :
    (trackCodes ids head merge n tracks).flatten = emitTracks ids head merge n tracks := by
  induction tracks generalizing n with
  | nil => rfl
  | cons track rest ih =>
    obtain ⟨guard, steps⟩ := track
    rw [trackCodes, List.flatten_cons, ih, emitTracks]

/-- Each track begins with the instruction of its first number. -/
theorem head?_trackCodes {tracks : List Casework.Track} {guards : List (Option String)}
    {planned : List Track} (ids : Naming) (head : StepHead) (merge : String) (n : Nat)
    (hplanned : tracksOf keys guards tracks = .ok planned) :
    List.Forall₂ (fun entry code => ∃ first, code.head? = some first ∧ first.id = ids entry.2)
      (entries n planned) (trackCodes ids head merge n planned) := by
  induction tracks generalizing guards planned n with
  | nil =>
    cases hplanned
    exact .nil
  | cons track rest ih =>
    obtain ⟨id, label, steps⟩ := track
    obtain ⟨first, more, -, hsome, hmore, rfl⟩ := tracksOf_cons_eq_ok hplanned
    rw [entries, trackCodes]
    refine .cons ?_ (ih _ hmore)
    obtain ⟨i, hi, hid⟩ := Option.map_eq_some_iff.1 (head?_emitSteps ids n merge hsome)
    refine ⟨i, ?_, hid⟩
    rw [List.head?_append, hi]
    rfl

/-- The code of each track is written as the track says, with a skip at its end or without. -/
theorem writtenAs_trackCodes {tracks : List Casework.Track} {guards : List (Option String)}
    {planned : List Track} (ids : Naming) (head : StepHead) (merge : String) (n : Nat)
    (hplanned : tracksOf keys guards tracks = .ok planned) :
    List.Forall₂ (Track.WrittenAs keys head) tracks (trackCodes ids head merge n planned) := by
  induction tracks generalizing guards planned n with
  | nil =>
    cases hplanned
    exact .nil
  | cons track rest ih =>
    obtain ⟨id, label, steps⟩ := track
    obtain ⟨first, more, hfirst, -, hmore, rfl⟩ := tracksOf_cons_eq_ok hplanned
    have hsteps : List.Forall₂ (Source.Writes keys) (stepsSources steps)
        (emitSteps ids n merge first) :=
      (stands_emitSteps n merge hfirst).imp fun source i h => h.1
    rw [trackCodes]
    -- Only the last track, and one that ends in a branch, goes on to the merge by itself.
    refine .cons ?_ (ih _ hmore)
    split
    case isTrue =>
      exact ⟨[.skip head 0], .inr ⟨0, rfl⟩, List.rel_append hsteps (.cons ⟨merge, rfl⟩ .nil)⟩
    case isFalse => exact ⟨[], .inl rfl, List.rel_append hsteps .nil⟩

-- ============================================================================
-- The place of a branch
-- ============================================================================

/-- The instructions of a branch step stand somewhere. -/
def HasBranch (p : Program) (keys : Entries String) (ids : Naming) (b : BranchStep) : Prop :=
  ∃ planned n q follow, stepOf keys (.branch b.head b.condition b.tracks) = .ok planned ∧
    p.HasAt q (emitStep ids n follow planned)

mutual

/-- Where a step stands, the branches at or below it stand. -/
theorem hasBranch_step {step : Casework.Step} {planned : Step} {n q : Nat} {follow : String}
    (hplanned : stepOf keys step = .ok planned) (hat : p.HasAt q (emitStep ids n follow planned))
    {b : BranchStep} (hb : b ∈ step.branches) : HasBranch p keys ids b := by
  cases step with
  | standard head actions advancement => cases hb
  | branch head condition tracks =>
    rcases List.mem_cons.1 hb with rfl | hb
    · exact ⟨planned, n, q, follow, hplanned, hat⟩
    · obtain ⟨field, comparison, guards, planned, -, -, htracks, rfl⟩ :=
        stepOf_branch_eq_ok hplanned
      -- The tracks stand between the test and the merge.
      rw [emitStep] at hat
      exact hasBranch_tracks htracks hat.left.tail hb

/-- The branches among some steps stand in a program that has their instructions. -/
theorem hasBranch_steps {steps : List Casework.Step} {planned : List Step} {n q : Nat}
    {follow : String} (hplanned : stepsOf keys steps = .ok planned)
    (hat : p.HasAt q (emitSteps ids n follow planned)) {b : BranchStep}
    (hb : b ∈ stepsBranches steps) :
    HasBranch p keys ids b := by
  match steps with
  | [] => cases hb
  | step :: rest =>
    obtain ⟨first, more, hfirst, hmore, rfl⟩ := stepsOf_cons_eq_ok hplanned
    rw [emitSteps] at hat
    rcases List.mem_append.1 hb with hb | hb
    · exact hasBranch_step hfirst hat.left hb
    · exact hasBranch_steps hmore hat.right hb

theorem hasBranch_tracks {tracks : List Casework.Track} {guards : List (Option String)}
    {planned : List Track} {head : StepHead} {n q : Nat} {merge : String}
    (hplanned : tracksOf keys guards tracks = .ok planned)
    (hat : p.HasAt q (emitTracks ids head merge n planned)) {b : BranchStep}
    (hb : b ∈ tracksBranches tracks) : HasBranch p keys ids b := by
  match tracks with
  | [] => cases hb
  | .mk id label steps :: rest =>
    obtain ⟨first, more, hfirst, -, hmore, rfl⟩ := tracksOf_cons_eq_ok hplanned
    rw [emitTracks] at hat
    rcases List.mem_append.1 hb with hb | hb
    · exact hasBranch_steps hfirst hat.left.left hb
    · exact hasBranch_tracks hmore hat.right hb

end

/-- The branch steps of a definition stand in its program. -/
theorem hasBranch_program (plan : Plan) {steps : List Casework.Step}
    (hplanned : stepsOf keys steps = .ok plan.steps) {b : BranchStep}
    (hb : b ∈ stepsBranches steps) :
    HasBranch plan.program keys (namingOf plan.names) b := by
  obtain ⟨start, -, -, hprogram⟩ := plan.program_eq
  have hat := plan.program.hasAt_zero
  rw [hprogram] at hat ⊢
  exact hasBranch_steps hplanned hat.tail.left hb

end Plan

/-- A branch step stands in a program: its test, the instructions of its tracks one track after the
other, and its merge. -/
structure Program.BranchAt (p : Program) (keys : Entries String) (b : BranchStep)
    (test : Instruction)
    (codes : List (List Instruction)) : Prop where
  placed : ∃ q merge, p.HasAt q (test :: codes.flatten ++ [merge]) ∧
    (Source.merge b.head).Writes keys merge
  test : (Source.test b).Writes keys test
  tracks : List.Forall₂ (Track.WrittenAs keys b.head) b.tracks codes

/-- With these variables a condition goes to the first instruction of the code. -/
def Instruction.GoesTo (test : Instruction) (vars : Variables) (code : List Instruction) : Prop :=
  ∃ first, code.head? = some first ∧
    Walk.conditionTarget test.operation.config vars = .ok (.text first.id)

namespace Program.BranchAt

variable {p : Program} {keys : Entries String} {b : BranchStep} {test : Instruction}
  {codes : List (List Instruction)} {j k : Nat} {code code' : List Instruction}

/-- The codes of the tracks stand in the program, in this order. -/
theorem flatten_sublist (h : p.BranchAt keys b test codes) : codes.flatten.Sublist p := by
  obtain ⟨q, merge, ⟨before, after, rfl, -⟩, -⟩ := h.placed
  have htest : codes.flatten.Sublist (test :: codes.flatten ++ [merge]) :=
    (List.sublist_cons_self ..).trans (List.sublist_append_left ..)
  exact (htest.trans (List.sublist_append_right ..)).trans (List.sublist_append_left ..)

/-- Where ids differ, no id stands in two tracks. -/
theorem id_ne_of_lt (h : p.BranchAt keys b test codes) (hnodup : (p.map Instruction.id).Nodup)
    (hj : codes[j]? = some code) (hk : codes[k]? = some code') (hlt : j < k) {i i' : Instruction}
    (hi : i ∈ code) (hi' : i' ∈ code') : i.id ≠ i'.id := by
  have hcodes := hnodup.sublist (h.flatten_sublist.map Instruction.id)
  rw [List.map_flatten, List.nodup_flatten, List.pairwise_iff_getElem] at hcodes
  obtain ⟨hjlt, rfl⟩ := List.getElem?_eq_some_iff.1 hj
  obtain ⟨hklt, rfl⟩ := List.getElem?_eq_some_iff.1 hk
  have hdisjoint := hcodes.2 j k (by simpa using hjlt) (by simpa using hklt) hlt
  rw [List.getElem_map, List.getElem_map] at hdisjoint
  intro hid
  exact hdisjoint (List.mem_map_of_mem hi) (hid ▸ List.mem_map_of_mem hi')

/-- A condition goes to one track only. -/
theorem eq_of_goesTo (h : p.BranchAt keys b test codes) (hnodup : (p.map Instruction.id).Nodup)
    (hj : codes[j]? = some code) (hk : codes[k]? = some code') {vars : Variables}
    (hgoes : test.GoesTo vars code) (hgoes' : test.GoesTo vars code') : j = k := by
  obtain ⟨first, hfirst, htarget⟩ := hgoes
  obtain ⟨first', hfirst', htarget'⟩ := hgoes'
  have hmem := List.mem_of_mem_head? hfirst
  have hmem' := List.mem_of_mem_head? hfirst'
  have hid : first.id = first'.id := by
    injection htarget.symm.trans htarget' with hid
    injection hid
  rcases Nat.lt_trichotomy j k with hlt | heq | hlt
  · exact absurd hid (h.id_ne_of_lt hnodup hj hk hlt hmem hmem')
  · exact heq
  · exact absurd hid.symm (h.id_ne_of_lt hnodup hk hj hlt hmem' hmem)

end Program.BranchAt

namespace Plan

variable {p : Program} {keys : Entries String} {ids : Naming} {b : BranchStep}

/-- A branch goes to the track that its condition chooses, and there is a text for every track but
those whose value is repeated. -/
theorem HasBranch.exists_branchAt (h : HasBranch p keys ids b) :
    ∃ test codes, p.BranchAt keys b test codes ∧
      (∀ k code, codes[k]? = some code →
        ((∃ value, b.condition.choice? b.tracks.length value = some k) ↔ ¬ b.condition.Repeats k)) ∧
      ∀ field, Template.branchField? b.condition.variableRef = some field → ∀ vars, ∃ index code,
        b.condition.choice? b.tracks.length (Template.render field vars) = some index ∧
          codes[index]? = some code ∧ test.GoesTo vars code := by
  obtain ⟨planned, n, q, follow, hplanned, hat⟩ := h
  obtain ⟨field, comparison, guards, planned, hfield, hguards, htracks, rfl⟩ :=
    stepOf_branch_eq_ok hplanned
  obtain ⟨hlength, hchoice⟩ := choice?_eq_guardIndex? hguards
  have hcodes := writtenAs_trackCodes ids b.head (ids (n + 1)) (n + 2) htracks
  have hheads := head?_trackCodes ids b.head (ids (n + 1)) (n + 2) htracks
  rw [emitStep, ← flatten_trackCodes] at hat
  refine ⟨_, _, ⟨⟨q, _, hat, ⟨follow, rfl⟩⟩, ⟨field, _, _, _, hfield, rfl⟩, hcodes⟩, ?_, ?_⟩
  -- Which values lead to a track follows from the guards.
  · intro k code hk
    obtain ⟨track, htrack, -⟩ := exists_getElem?_of_forall₂ hcodes hk
    obtain ⟨hlt, -⟩ := List.getElem?_eq_some_iff.1 htrack
    exact exists_choice?_iff hguards hlt
  -- For given variables the guard decides the target, and the target is where the code of the track
  -- begins.
  · intro field' hfield' vars
    obtain rfl : field = field' :=
      Option.some.inj ((branchField?_of_fieldOf hfield).symm.trans hfield')
    obtain ⟨index, hindex, hchosen, hguard⟩ := hchoice (Template.render field vars)
    have hlt : index < (trackCodes ids b.head (ids (n + 1)) (n + 2) planned).length := by
      rw [← hcodes.length_eq]
      exact hindex
    have hcode := List.getElem?_eq_getElem hlt
    obtain ⟨⟨guard, start⟩, hentry, first, hfirst, hid⟩ := exists_getElem?_of_forall₂ hheads hcode
    rw [← map_fst_entries (n + 2) htracks hlength] at hguard
    refine ⟨index, _, hchosen, hcode, first, hfirst, ?_⟩
    refine (Walk.conditionTarget_branch ..).trans ?_
    rw [targetOf_targets ids hguard hentry, hid]

end Plan

-- ============================================================================
-- Tracks that can be taken
-- ============================================================================

/-- A branch step stands in a program, and its test decides by the text of the field which of its
tracks is taken. -/
structure Program.Decides (p : Program) (keys : Entries String) (b : BranchStep)
    (test : Instruction)
    (codes : List (List Instruction)) (field : String) : Prop where
  stands : p.BranchAt keys b test codes
  field_eq : Template.branchField? b.condition.variableRef = some field
  /-- The test goes to the track that the branch step chooses. -/
  goesTo_iff : ∀ k code, codes[k]? = some code → ∀ vars, test.GoesTo vars code ↔
    b.condition.choice? b.tracks.length (Template.render field vars) = some k
  /-- Every track is chosen for some text, but for those whose value is repeated. -/
  chosen_iff : ∀ k code, codes[k]? = some code →
    ((∃ value, b.condition.choice? b.tracks.length value = some k) ↔ ¬ b.condition.Repeats k)
  /-- If the field names a variable, it can have this text. -/
  taken_iff : ∀ k code, codes[k]? = some code → Template.NamesVariable b.condition.variableRef →
    ((∃ vars, test.GoesTo vars code) ↔ ¬ b.condition.Repeats k)

/-- Variables can give a variable any text. -/
theorem Template.exists_render_eq {field path : String} (h : Shows field path) (value : String) :
    ∃ vars : Variables, render field vars = value := by
  refine ⟨⟨[(path, .text value)]⟩, ?_⟩
  rw [h, shown, Entries.value, Entries.get?, List.lookup_cons_self]
  rfl

namespace Definition

variable {d : Definition} {p : Program} {b : BranchStep}

theorem exists_decides (h : d.compile = .ok p) (hb : b ∈ d.branches) :
    ∃ test codes field, p.Decides (Template.keysOf d.vars) b test codes field := by
  obtain ⟨steps, hplanned, rfl⟩ := exists_plan_of_compile h
  obtain ⟨test, codes, hat, hchosen, hgoes⟩ :=
    (Plan.hasBranch_program ⟨d.trigger, d.contactRequired, steps⟩ hplanned hb).exists_branchAt
  obtain ⟨field, comparison, targets, otherwise, hfieldOf, -⟩ := hat.test
  have hfield := branchField?_of_fieldOf hfieldOf
  -- The test goes to the code of a track exactly if the track is the choice for the value that is
  -- shown.
  have hgoesTo : ∀ k code, codes[k]? = some code → ∀ vars, test.GoesTo vars code ↔
      b.condition.choice? b.tracks.length (Template.render field vars) = some k := by
    intro k code hk vars
    obtain ⟨index, taken, hchoice, hindex, htarget⟩ := hgoes field hfield vars
    rw [hchoice]
    constructor
    · -- The target has an id, and no other track begins with an instruction of this id.
      intro htarget'
      exact congrArg some (hat.eq_of_goesTo
        (Plan.nodup_map_id_program _) hindex hk htarget htarget')
    · intro hsame
      obtain rfl : index = k := Option.some.inj hsame
      obtain rfl : taken = code := Option.some.inj (hindex.symm.trans hk)
      exact htarget
  refine ⟨test, codes, field, hat, hfield, hgoesTo, hchosen, fun k code hk hnames => ?_⟩
  -- The field shows a variable, so that every value can be shown.
  obtain ⟨path, hshows⟩ := (Template.exists_shows_iff hfield).2 hnames
  rw [← hchosen k code hk, exists_congr (hgoesTo k code hk)]
  constructor
  · rintro ⟨vars, hchoice⟩
    exact ⟨_, hchoice⟩
  · rintro ⟨value, hchoice⟩
    obtain ⟨vars, rfl⟩ := Template.exists_render_eq hshows value
    exact ⟨vars, hchoice⟩

/-- Which tracks can be taken: a track is chosen for some text exactly if its value stands for no
track before it, and if the field names a variable, there are variables with which its branch goes
to it. -/
theorem tracks_taken (h : d.issues = []) : ∃ p, d.compile = .ok p ∧ ∀ b ∈ d.branches,
    ∃ test codes field, p.Decides (Template.keysOf d.vars) b test codes field := by
  obtain ⟨plan, -, hcompile⟩ := compile_of_issues_eq_nil h
  exact ⟨plan.program, hcompile, fun b hb => exists_decides hcompile hb⟩

theorem tracks_taken_routing : routing.issues = [] ∧ ∃ p, routing.compile = .ok p ∧
    ∀ b ∈ routing.branches, ∃ test codes, p.BranchAt (Template.keysOf routing.vars) b test codes ∧
      ∀ code ∈ codes, ∃ vars, test.GoesTo vars code := by
  have hissues : routing.issues = [] := by decide
  have hcontact : ∀ b ∈ routing.branches,
      (Template.contactField? b.condition.variableRef).isSome := by
    decide
  have hvalues : ∀ b ∈ routing.branches,
    (b.condition.compareValue.texts?.getD []).Nodup := by decide
  obtain ⟨p, hcompile, hbranches⟩ := tracks_taken hissues
  refine ⟨hissues, p, hcompile, fun b hb => ?_⟩
  obtain ⟨test, codes, field, hdecides⟩ := hbranches b hb
  refine ⟨test, codes, hdecides.stands, fun code hcode => ?_⟩
  obtain ⟨k, hk⟩ := List.mem_iff_getElem?.1 hcode
  have hunrepeated := BranchCondition.not_repeats (hvalues b hb) k
  exact (hdecides.taken_iff k code hk (.inl (hcontact b hb))).2 hunrepeated

/-- A definition of one branch whose tracks do nothing. -/
def onlyBranch (condition : BranchCondition) (tracks : List String) : Definition where
  id := "only"
  name := "Only"
  description := none
  trigger := ⟨.manual, none⟩
  contactRequired := true
  statuses := [⟨"open", "Open", .whole 1, none⟩]
  vars := []
  phases := []
  steps := [.branch ⟨"kind", "Kind", none⟩ condition <| tracks.map fun id =>
    .mk id id [.standard ⟨id, id, none⟩ [] ⟨"automatic", .empty⟩]]

/-- A condition with one value for two tracks. -/
def sameValues : BranchCondition := ⟨"var-contact.status", "in", .list [.text "a", .text "a"]⟩

def repeating : Definition := onlyBranch sameValues ["first", "second", "third"]

/-- Of two tracks with one value the second one is never taken. -/
theorem not_all_tracks_taken :
    repeating.issues = [] ∧ ∃ p, repeating.compile = .ok p ∧ ∃ b ∈ repeating.branches,
      ∃ test codes code,
      p.BranchAt (Template.keysOf repeating.vars) b test codes ∧ codes[1]? = some code ∧
      ∀ vars, ¬ test.GoesTo vars code := by
  have hissues : repeating.issues = [] := by decide
  have hrepeats : sameValues.Repeats 1 := ⟨rfl, ["a", "a"], "a", rfl, rfl, List.mem_singleton.2 rfl⟩
  have hnames : Template.NamesVariable sameValues.variableRef := .inl (by decide)
  obtain ⟨plan, -, hcompile⟩ := compile_of_issues_eq_nil hissues
  obtain ⟨b, hb, hcondition, hlength⟩ :
      ∃ b ∈ repeating.branches, b.condition = sameValues ∧ b.tracks.length = 3 :=
    ⟨_, List.mem_singleton.2 rfl, rfl, rfl⟩
  obtain ⟨test, codes, field, hdecides⟩ := exists_decides hcompile hb
  -- There are three tracks; the second is for the repeated value.
  have hlt : 1 < codes.length := by
    rw [← hdecides.stands.tracks.length_eq, hlength]
    decide
  have hcode := List.getElem?_eq_getElem hlt
  have htaken := hdecides.taken_iff 1 _ hcode
  rw [hcondition] at htaken
  refine ⟨hissues, plan.program, hcompile, b, hb, test, codes, _, hdecides.stands, hcode, ?_⟩
  exact fun vars hgoes => (htaken hnames).1 ⟨vars, hgoes⟩ hrepeats

-- ============================================================================
-- The variable that a branch tests
-- ============================================================================

/-- What the test of a branch looks at is one variable exactly if the branch names a variable: a
field of the contact, or a single token. -/
theorem branch_shows_iff (h : d.issues = []) : ∃ p, d.compile = .ok p ∧ ∀ b ∈ d.branches,
    ∃ test codes field comparison targets otherwise,
      p.BranchAt (Template.keysOf d.vars) b test codes ∧
      test.operation = .branch field comparison targets otherwise ∧
      ((∃ path, Template.Shows field path) ↔ Template.NamesVariable b.condition.variableRef) := by
  obtain ⟨plan, -, hcompile⟩ := compile_of_issues_eq_nil h
  refine ⟨plan.program, hcompile, fun b hb => ?_⟩
  obtain ⟨test, codes, _, hdecides⟩ := exists_decides hcompile hb
  obtain ⟨field, comparison, targets, otherwise, hfield, htest⟩ := hdecides.stands.test
  exact ⟨test, codes, field, comparison, targets, otherwise, hdecides.stands,
    congrArg Instruction.operation htest,
      Template.exists_shows_iff (branchField?_of_fieldOf hfield)⟩

theorem branch_shows_routing : routing.issues = [] ∧ ∃ p, routing.compile = .ok p ∧
    ∀ b ∈ routing.branches, ∃ test codes field comparison targets otherwise,
      p.BranchAt (Template.keysOf routing.vars) b test codes ∧
      test.operation = .branch field comparison targets otherwise ∧ ∃ path,
        Template.Shows field path := by
  have hissues : routing.issues = [] := by decide
  have hcontact : ∀ b ∈ routing.branches,
      (Template.contactField? b.condition.variableRef).isSome := by
    decide
  obtain ⟨p, hcompile, hbranches⟩ := branch_shows_iff hissues
  refine ⟨hissues, p, hcompile, fun b hb => ?_⟩
  obtain ⟨test, codes, field, comparison, targets, otherwise, hat, htest, hiff⟩ := hbranches b hb
  exact ⟨test, codes, field, comparison, targets, otherwise, hat, htest,
    hiff.2 (.inl (hcontact b hb))⟩

/-- A text that begins and ends with double braces, and is two tokens. -/
def twoTokens : String := Template.token "contact.status" ++ Template.token "contact.city"

def pairing : Definition := onlyBranch ⟨twoTokens, "equals", .text "a"⟩ ["yes", "no"]

/-- What two tokens show is not the text of one variable. -/
theorem not_all_branches_show :
    pairing.issues = [] ∧ ∃ p, pairing.compile = .ok p ∧ ∃ b ∈ pairing.branches,
      ∃ test codes field comparison targets otherwise,
        p.BranchAt (Template.keysOf pairing.vars) b test codes ∧
        test.operation = .branch field comparison targets otherwise ∧
        ¬ ∃ path, Template.Shows field path := by
  have hissues : pairing.issues = [] := by decide
  have hnames : ¬ Template.NamesVariable twoTokens := by
    rintro (hcontact | ⟨path, htoken⟩)
    · exact absurd hcontact (by decide)
    · -- A single token has no other opening brace behind its first two.
      obtain ⟨inner, hinner, -, hbrace⟩ := htoken.inner
      have hbehind : inner = twoTokens.toList.drop 2 := by rw [hinner]; rfl
      exact hbrace (by rw [hbehind]; decide)
  obtain ⟨plan, -, hcompile⟩ := compile_of_issues_eq_nil hissues
  obtain ⟨b, hb, href⟩ : ∃ b ∈ pairing.branches, b.condition.variableRef = twoTokens :=
    ⟨_, List.mem_singleton.2 rfl, rfl⟩
  obtain ⟨test, codes, _, hdecides⟩ := exists_decides hcompile hb
  obtain ⟨field, comparison, targets, otherwise, hfield, htest⟩ := hdecides.stands.test
  refine ⟨hissues, plan.program, hcompile, b, hb, test, codes, field, comparison,
    targets, otherwise,
    hdecides.stands, congrArg Instruction.operation htest, fun hshows => hnames ?_⟩
  rw [← href]
  exact (Template.exists_shows_iff (branchField?_of_fieldOf hfield)).1 hshows

end Definition
end Casework
