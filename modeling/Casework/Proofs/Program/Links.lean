/-
  Casework.Proofs.Program.Links

  What the instructions of a program refer to. A condition names instructions behind it, and a wait
  names an instruction before it that creates a task: no id in a program leads nowhere, and no jump
  goes back. Nor does a jump lead between the creation of a task and the wait for it, since both
  come from one part of the plan, and jumps lead to where parts begin. Each part is looked at where
  its instructions stand, given that the instruction to go on to stands behind the part.
-/
import Casework.Proofs.Program.Simulation

namespace Casework

open Result

-- ============================================================================
-- Links
-- ============================================================================

namespace Program

variable (p : Program)

/-- The instruction at a place has the id. -/
def IdAt (k : Nat) (id : String) : Prop := ∃ i, p[k]? = some i ∧ i.id = id

/-- Whatever is waited for from a place on is created from there on, so that a walk can begin
there. -/
def Entry (m : Nat) : Prop :=
  ∀ (j : Nat) (i : Instruction) (creator : String) (days : Nat), m ≤ j → p[j]? = some i →
    i.operation = .awaitTask creator days → ∃ k, m ≤ k ∧ p.IdAt k creator

/-- An instruction behind a place has the id, and a walk can begin there. -/
def Behind (k : Nat) (id : String) : Prop := ∃ m, k < m ∧ p.Entry m ∧ p.IdAt m id

end Program

/-- What an operation at place `k` of code from place `q` on refers to stands where it should: the
targets of a condition behind it, and the creation of the task that is waited for before it in the
code. -/
def Operation.Linked (p : Program) (q k : Nat) : Operation → Prop
  | .branch _ _ targets otherwise =>
    (∀ target ∈ targets, p.Behind k target.2) ∧ p.Behind k otherwise
  | .goto target => p.Behind k target
  | .awaitTask creator _ =>
    ∃ m i task, q ≤ m ∧ m < k ∧ p[m]? = some i ∧ i.id = creator ∧
      i.operation = .work (.createTask task)
  | .start .. | .mark | .work _ => True

/-- All instructions of code that stands from place `q` on are linked. -/
def Program.LinkedFrom (p : Program) (q : Nat) (code : List Instruction) : Prop :=
  ∀ (k : Nat) (i : Instruction), code[k]? = some i → i.operation.Linked p q (q + k)

/-- What is linked from a place on is linked from an earlier one on. -/
theorem Operation.Linked.mono {p : Program} {q q' k : Nat} {operation : Operation}
    (h : operation.Linked p q' k) (hle : q ≤ q') : operation.Linked p q k := by
  cases operation with
  | awaitTask creator days =>
    obtain ⟨m, i, task, hm, hrest⟩ := h
    exact ⟨m, i, task, Nat.le_trans hle hm, hrest⟩
  | start | mark | work | branch | goto => exact h

namespace Program

variable {p : Program} {q : Nat} {i : Instruction} {code more : List Instruction} {id : String}

/-- Where code stands, the id of its first instruction is at that place. -/
theorem IdAt.of_hasAt (hat : p.HasAt q code) (hhead : code.head?.map Instruction.id = some id) :
    p.IdAt q id := by
  cases code with
  | nil => simp at hhead
  | cons i rest => exact ⟨i, hat.head, by simpa using hhead⟩

namespace LinkedFrom

theorem nil (q : Nat) : p.LinkedFrom q [] := by
  intro k i h
  simp at h

/-- Linked code stays linked behind an instruction that is. -/
theorem cons (hi : i.operation.Linked p q q) (h : p.LinkedFrom (q + 1) code) :
    p.LinkedFrom q (i :: code) := by
  intro k j hj
  cases k with
  | zero =>
    obtain rfl : i = j := by simpa using hj
    exact hi
  | succ k =>
    have hlinked := h k j (by simpa using hj)
    rw [Nat.add_assoc, Nat.add_comm 1 k] at hlinked
    exact hlinked.mono (Nat.le_succ q)

theorem single (hi : i.operation.Linked p q q) : p.LinkedFrom q [i] := cons hi (nil _)

/-- Two pieces of linked code, one behind the other, are linked. -/
theorem append (h : p.LinkedFrom q code) (hmore : p.LinkedFrom (q + code.length) more) :
    p.LinkedFrom q (code ++ more) := by
  intro k i hi
  by_cases hk : k < code.length
  · exact h k i (by rwa [List.getElem?_append_left hk] at hi)
  · obtain ⟨j, rfl⟩ := Nat.exists_eq_add_of_le (Nat.le_of_not_lt hk)
    rw [List.getElem?_append_right (Nat.le_add_right ..), Nat.add_sub_cancel_left] at hi
    rw [← Nat.add_assoc]
    exact (hmore j i hi).mono (Nat.le_add_right ..)

/-- An instruction behind linked code may refer to the code. -/
theorem concat (h : p.LinkedFrom q code) (hi : i.operation.Linked p q (q + code.length)) :
    p.LinkedFrom q (code ++ [i]) := by
  intro k j hj
  by_cases hk : k < code.length
  · exact h k j (by rwa [List.getElem?_append_left hk] at hj)
  · obtain ⟨r, rfl⟩ := Nat.exists_eq_add_of_le (Nat.le_of_not_lt hk)
    rw [List.getElem?_append_right (Nat.le_add_right ..), Nat.add_sub_cancel_left,
      List.getElem?_singleton] at hj
    split at hj
    case isFalse => cases hj
    case isTrue hr =>
      cases hj
      rwa [hr]

/-- A walk can begin at linked code, if it can begin behind it. -/
theorem entry (h : p.LinkedFrom q code) (hat : p.HasAt q code) (hend : p.Entry (q + code.length)) :
    p.Entry q := by
  intro j i creator days hfrom hi hwait
  obtain ⟨k, rfl⟩ := Nat.exists_eq_add_of_le hfrom
  by_cases hk : k < code.length
  · have hplace := hat.getElem? (List.getElem?_eq_getElem hk)
    rw [hi, Option.some.injEq] at hplace
    have hlinked := h k code[k] (List.getElem?_eq_getElem hk)
    rw [← hplace, hwait] at hlinked
    obtain ⟨m, c, -, hm, -, hc, hid, -⟩ := hlinked
    exact ⟨m, hm, c, hc, hid⟩
  · obtain ⟨m, hm, hcreator⟩ := hend _ i creator days (by omega) hi hwait
    exact ⟨m, by omega, hcreator⟩

end LinkedFrom

/-- A walk can begin at the last instruction. -/
theorem entry_of_last (hat : p.HasAt q [i]) (hlast : p.length = q + 1)
    (hi : i.operation.Linked p q q) : p.Entry q := by
  refine (LinkedFrom.single hi).entry hat fun j other creator days hfrom hother => ?_
  obtain ⟨hlt, -⟩ := List.getElem?_eq_some_iff.1 hother
  rw [List.length_singleton] at hfrom
  omega

end Program

namespace Plan

variable {p : Program} {keys : Entries String} {ids : Naming}

-- ============================================================================
-- Standard steps
-- ============================================================================

/-- The instructions of actions are linked, as they neither jump nor wait. -/
theorem linkedFrom_emitActions (head : StepHead) (n q : Nat) (actions : List Action) :
    p.LinkedFrom q (emitActions ids head n actions) := by
  induction actions generalizing n q with
  | nil => exact .nil q
  | cons action rest ih => exact .cons trivial (ih _ _)

/-- The instructions of a standard step are linked: its wait comes behind the creation that it
names. -/
theorem linkedFrom_emitStandard {actions : List Casework.Action} {planned : List Action}
    {advancement : Advancement} {wait : Option Wait} {head : StepHead} {n q : Nat}
    (hplanned : actions.mapM (actionOf keys) = .ok planned)
    (hwait : waitOf advancement planned = .ok wait)
    (hat : p.HasAt q (emitStandard ids n head planned wait)) :
    p.LinkedFrom q (emitStandard ids n head planned wait) := by
  cases wait with
  | none =>
    rw [emitStandard]
    split
    · exact .single trivial
    · exact linkedFrom_emitActions head n q planned
  | some wait =>
    rcases waitOf_cases hplanned hwait with
      ⟨-, hnone⟩ | ⟨id, -, position, task, -, -, -, -, hcreator, hsome⟩
    · cases hnone
    · cases hsome
      obtain ⟨hlt, -⟩ := List.getElem?_eq_some_iff.1 hcreator
      -- The creator is one of the actions, so its instruction stands before the wait.
      have hplace := hat.left.getElem? (getElem?_emitActions ids head n hcreator)
      refine .concat (linkedFrom_emitActions head n q planned)
        ⟨_, _, task, Nat.le_add_right q _, ?_,
        hplace, rfl, rfl⟩
      rw [length_emitActions]
      omega

-- ============================================================================
-- Tracks of a branch
-- ============================================================================

/-- A branch has a track that is taken when no other one is. -/
theorem none_mem_of_guardsOf {condition : BranchCondition} {tracks : Nat} {comparison : Comparison}
    {guards : List (Option String)} (h : guardsOf condition tracks = .ok (comparison, guards)) :
    none ∈ guards := by
  rw [guardsOf] at h
  split at h
  case h_4 => cases h
  case h_3 =>
    split at h
    case h_2 => cases h
    case h_1 =>
      split at h
      case isFalse => cases h
      case isTrue => cases h; simp
  all_goals
    split at h
    case isFalse => cases h
    case isTrue => cases h; simp

/-- The tracks of a branch begin with the instructions that it leads to. -/
def Entered (p : Program) (ids : Naming) (n q : Nat) (tracks : List Track) : Prop :=
  ∀ entry ∈ entries n tracks, ∃ place, q ≤ place ∧ p.Entry place ∧ p.IdAt place (ids entry.2)

theorem mem_of_lookup {α β : Type} [BEq α] [LawfulBEq α] {key : α} {value : β}
    {entries : List (α × β)} (h : entries.lookup key = some value) : (key, value) ∈ entries := by
  obtain ⟨before, after, rfl, -⟩ := List.lookup_eq_some_iff.1 h
  simp

/-- A branch leads to the first instructions of its tracks. -/
theorem linked_branch {condition : BranchCondition} {tracks : List Casework.Track}
    {comparison : Comparison} {guards : List (Option String)} {planned : List Track}
    {field : String}
    {n q : Nat}
    (hguards : guardsOf condition tracks.length = .ok (comparison, guards))
    (hplanned : tracksOf keys guards tracks = .ok planned)
    (hentered : Entered p ids n (q + 1) planned) :
    (Operation.branch field comparison (targets ids n planned)
      (otherwise ids n planned)).Linked p q q := by
  -- Every track can be entered, and begins behind the branch.
  have hbehind : ∀ entry ∈ entries n planned, p.Behind q (ids entry.2) := by
    intro entry hentry
    obtain ⟨place, hplace, hat⟩ := hentered entry hentry
    exact ⟨place, by omega, hat⟩
  -- A listed target is where one of the tracks begins.
  refine ⟨fun target htarget => ?_, ?_⟩
  · obtain ⟨⟨guard, start⟩, hentry, htarget⟩ := List.mem_filterMap.1 htarget
    obtain ⟨value, -, rfl⟩ := Option.map_eq_some_iff.1 htarget
    exact hbehind _ hentry
  -- There is a track without a guard, and the target for all other values is where it begins.
  · have hnone : none ∈ (entries n planned).map Prod.fst := by
      rw [map_fst_entries n hplanned (choice?_eq_guardIndex? hguards).1]
      exact none_mem_of_guardsOf hguards
    rw [otherwise]
    cases hstart : (entries n planned).lookup none with
    | some start => exact hbehind _ (mem_of_lookup hstart)
    | none =>
      obtain ⟨entry, hentry, hguard⟩ := List.mem_map.1 hnone
      exact absurd hguard.symm (by simpa using List.lookup_eq_none_iff.1 hstart entry hentry)

-- ============================================================================
-- Steps
-- ============================================================================

mutual

/-- The instructions of a step are linked, if it goes on to an instruction behind them. -/
theorem linkedFrom_emitStep {step : Casework.Step} {planned : Step} {n q : Nat} {follow : String}
    {target : Nat} (hplanned : stepOf keys step = .ok planned)
    (hat : p.HasAt q (emitStep ids n follow planned)) (hfollow : p.IdAt target follow)
    (hforward : q + planned.size ≤ target) (hentry : p.Entry target)
    (hend : p.Entry (q + planned.size)) :
    p.LinkedFrom q (emitStep ids n follow planned) := by
  cases step with
  | standard head actions advancement =>
    obtain ⟨works, wait, hworks, hwait, rfl⟩ := stepOf_standard_eq_ok hplanned
    rw [emitStep] at hat ⊢
    exact linkedFrom_emitStandard hworks hwait hat
  | branch head condition tracks =>
    obtain ⟨field, comparison, guards, planned, -, hguards, htracks, rfl⟩ :=
      stepOf_branch_eq_ok hplanned
    rw [emitStep] at hat ⊢
    rw [Step.size] at hforward hend
    have hcode := hat.left.tail
    have hlast := hat.right
    rw [List.length_cons, length_emitTracks, Nat.add_comm _ 1, ← Nat.add_assoc] at hlast
    -- The merge jumps forward, to what follows the branch.
    have hmerge : p.LinkedFrom (q + 1 + tracksSize planned)
        [instruction head (ids (n + 1)) "Merge" (.goto follow)] :=
      .single ⟨target, by omega, hentry, hfollow⟩
    have hjoin := hmerge.entry hlast (by rw [List.length_singleton]; convert hend using 1; omega)
    -- The tracks end before the merge, which is an entry for them.
    obtain ⟨hlinked, hentered⟩ := linkedFrom_emitTracks htracks hcode ⟨_, hlast.head, rfl⟩ hjoin
    refine .append (.cons (linked_branch hguards htracks hentered) hlinked) ?_
    rwa [List.length_cons, length_emitTracks, Nat.add_comm _ 1, ← Nat.add_assoc]

/-- The instructions of some steps are linked, if what follows them stands behind, and the place
behind them is an entry. -/
theorem linkedFrom_emitSteps {steps : List Casework.Step} {planned : List Step} {n q : Nat}
    {follow : String} {target : Nat} (hplanned : stepsOf keys steps = .ok planned)
    (hat : p.HasAt q (emitSteps ids n follow planned)) (hfollow : p.IdAt target follow)
    (hforward : q + stepsSize planned ≤ target) (hentry : p.Entry target)
    (hend : p.Entry (q + stepsSize planned)) :
    p.LinkedFrom q (emitSteps ids n follow planned) := by
  match steps with
  | [] =>
    cases hplanned
    exact .nil q
  | step :: rest =>
    obtain ⟨first, more, hfirst, hmore, rfl⟩ := stepsOf_cons_eq_ok hplanned
    rw [emitSteps] at hat ⊢
    rw [stepsSize, ← Nat.add_assoc] at hforward hend
    have hlast := hat.right
    rw [length_emitStep] at hlast
    have hrest := linkedFrom_emitSteps hmore hlast hfollow hforward hentry hend
    have hbetween := hrest.entry hlast (by rwa [length_emitSteps])
    cases more with
    | nil =>
      refine .append (linkedFrom_emitStep hfirst hat.left hfollow (by omega) hentry hbetween) ?_
      rwa [length_emitStep]
    | cons second more =>
      -- The next step begins right behind this one.
      have hnext : p.IdAt (q + first.size) (ids (n + first.size)) :=
        .of_hasAt hlast (head?_emitSteps ids _ follow (by simp))
      refine .append (linkedFrom_emitStep hfirst hat.left hnext (Nat.le_refl _) hbetween hbetween)
        ?_
      rwa [length_emitStep]

/-- The instructions of tracks are linked, if the merge stands right behind them, and each track can
be entered where it begins. -/
theorem linkedFrom_emitTracks {tracks : List Casework.Track} {guards : List (Option String)}
    {planned : List Track} {head : StepHead} {n q : Nat} {merge : String}
    (hplanned : tracksOf keys guards tracks = .ok planned)
    (hat : p.HasAt q (emitTracks ids head merge n planned))
    (hmerge : p.IdAt (q + tracksSize planned) merge) (hjoin : p.Entry (q + tracksSize planned)) :
    p.LinkedFrom q (emitTracks ids head merge n planned) ∧ Entered p ids n q planned := by
  match tracks with
  | [] =>
    cases hplanned
    exact ⟨.nil q, fun entry hentry => absurd hentry List.not_mem_nil⟩
  | .mk id label steps :: rest =>
    obtain ⟨first, more, hfirst, hsome, hmore, rfl⟩ := tracksOf_cons_eq_ok hplanned
    rw [emitTracks] at hat ⊢
    rw [tracksSize, ← Nat.add_assoc, ← Nat.add_assoc] at hmerge hjoin
    have hskips : (if skips first more then
        [instruction head (ids (n + stepsSize first)) "Skip to Merge" (.goto merge)]
      else []).length = if skips first more then 1 else 0 := by
      split <;> rfl
    have hlast := hat.right
    rw [List.length_append, length_emitSteps, hskips, ← Nat.add_assoc] at hlast
    -- The tracks behind come first, since the skip leads over them.
    obtain ⟨hrest, hentered⟩ := linkedFrom_emitTracks hmore hlast hmerge hjoin
    have hnext := hrest.entry hlast (by rwa [length_emitTracks])
    have hskip : p.LinkedFrom (q + stepsSize first) (if skips first more then
        [instruction head (ids (n + stepsSize first)) "Skip to Merge" (.goto merge)] else []) := by
      split
      case isTrue hyes =>
        rw [if_pos hyes] at hmerge hjoin
        exact .single ⟨_, by omega, hjoin, hmerge⟩
      case isFalse => exact .nil _
    have hat' := hat.left.right
    rw [length_emitSteps] at hat'
    have hbehind := hskip.entry hat' (by rwa [hskips])
    -- The steps of the first track, whose way on is the merge.
    have hsteps := linkedFrom_emitSteps hfirst hat.left.left hmerge (by omega) hjoin hbehind
    refine ⟨.append (.append hsteps (by rwa [length_emitSteps])) ?_, fun entry hentry => ?_⟩
    · rwa [List.length_append, length_emitSteps, hskips, ← Nat.add_assoc]
    · rw [entries] at hentry
      -- The first track begins here; the others begin further on.
      rcases List.mem_cons.1 hentry with rfl | hentry
      · have hhere := hsteps.entry hat.left.left (by rwa [length_emitSteps])
        exact ⟨q, Nat.le_refl q, hhere, .of_hasAt hat.left.left (head?_emitSteps ids n merge hsome)⟩
      · obtain ⟨place, hplace, hrest⟩ := hentered entry hentry
        exact ⟨place, by omega, hrest⟩

end

end Plan
end Casework
