/-
  Casework.Proofs.Program.Course

  Walks through a program whose variables can change at every step, in any way. Where instructions
  are linked, a step leads to a place behind it, so a walk only goes forward: it visits no
  instruction twice, and ends behind the last one.
-/
import Casework.Proofs.Program.Links

namespace Casework

-- ============================================================================
-- Jumps
-- ============================================================================

/-- The ids that an operation can jump to. -/
def Operation.jumps : Operation → List String
  | .branch _ _ targets otherwise => targets.map Prod.snd ++ [otherwise]
  | .goto target => [target]
  | .start .. | .mark | .work _ | .awaitTask .. => []

/-- The ids that a linked operation jumps to are those of instructions behind. -/
theorem Operation.Linked.behind {p : Program} {q k : Nat} {operation : Operation}
    (h : operation.Linked p q k) {id : String} (hid : id ∈ operation.jumps) : p.Behind k id := by
  cases operation with
  | branch field comparison targets otherwise =>
    rcases List.mem_append.1 hid with htarget | hlast
    · obtain ⟨target, hmem, rfl⟩ := List.mem_map.1 htarget
      exact h.1 target hmem
    · exact List.mem_singleton.1 hlast ▸ h.2
  | goto target => exact List.mem_singleton.1 hid ▸ h
  | start | mark | work | awaitTask => exact absurd hid List.not_mem_nil

/-- The conditions of a program are its branches and its jumps. -/
theorem Operation.word_eq_condition {operation : Operation} :
    operation.word = "condition" ↔
      (∃ field comparison targets otherwise,
        operation = .branch field comparison targets otherwise) ∨
        ∃ target, operation = .goto target := by
  cases operation with
  | work w => cases w <;> simp [word, Work.word]
  | _ => simp [word]

namespace Walk

/-- The ids that the configuration of a condition names as targets: those of its branches, and the
one that is taken when no branch is. -/
def targetsOf (config : Json) : List Json :=
  ((config.field "branches").list?.getD []).map (·.field "gotoStepId") ++
    (config.object?.bind (·.get? "defaultGotoStepId")).toList

/-- The ids that the document of a step names as targets, if the step is a condition. -/
def jumpTargets (step : Json) : List Json :=
  if (step.field "type").isTextOf "condition" then targetsOf (step.field "config") else []

theorem targetsOf_branch (field : String) (comparison : Comparison)
    (targets : List (String × String)) (otherwise : String) :
    targetsOf (Operation.branch field comparison targets otherwise).config =
      (targets.map Prod.snd ++ [otherwise]).map Json.text := by
  have hbranches : ((Operation.branch field comparison targets otherwise).config.field
      "branches").list?.getD [] = targets.map fun target => branchEntry target.1 target.2 := rfl
  have hentry : ∀ target : String × String,
      (branchEntry target.1 target.2).field "gotoStepId" = .text target.2 := fun _ => rfl
  have hlast : ((Operation.branch field comparison targets otherwise).config.object?.bind
      (·.get? "defaultGotoStepId")).toList = [.text otherwise] := rfl
  rw [targetsOf, hbranches, hlast, List.map_append, List.map_map, List.map_map]
  simp only [Function.comp_def, hentry, List.map_cons, List.map_nil]

theorem jumpTargets_toJson (i : Instruction) :
    jumpTargets i.toJson = i.operation.jumps.map Json.text := by
  rw [jumpTargets, i.field_type, i.field_config]
  cases i.operation with
  | work w => cases w <;> rfl
  | branch field comparison targets otherwise =>
    rw [if_pos (by rfl), targetsOf_branch]
    rfl
  | _ => rfl

/-- The target for a value is one of those that are listed, or the one for all other values. -/
theorem targetOf_mem (value : String) (targets : List (String × String)) (otherwise : String) :
    targetOf value targets otherwise ∈ targets.map Prod.snd ++ [otherwise] := by
  rw [targetOf]
  cases h : targets.lookup value with
  | none => simp
  | some target =>
    exact List.mem_append_left _ (List.mem_map.2 ⟨_, Plan.mem_of_lookup h, rfl⟩)

/-- A condition selects one of its targets, whatever the variables are. -/
theorem exists_jump_of_condition {operation : Operation} (h : operation.word = "condition")
    (vars : Variables) :
    ∃ target ∈ operation.jumps, conditionTarget operation.config vars = .ok (.text target) := by
  rcases Operation.word_eq_condition.1 h with
    ⟨field, comparison, targets, otherwise, rfl⟩ | ⟨target, rfl⟩
  · exact ⟨_, targetOf_mem _ targets otherwise, conditionTarget_branch ..⟩
  · exact ⟨target, List.mem_singleton.2 rfl, conditionTarget_goto target vars⟩

-- ============================================================================
-- Steps and courses
-- ============================================================================

/-- A linked instruction leads to a place behind it: to the next one, or where a walk can begin. -/
theorem next_of_linked {p : Program} {table : Table Nat} (hplaces : Places p table) {q k : Nat}
    {i : Instruction} (hi : p[k]? = some i) (hlinked : i.operation.Linked p q k)
    (vars : Variables) :
    ∃ m, next i.toJson k table vars = .ok m ∧ k < m ∧ m ≤ p.length ∧ (m = k + 1 ∨ p.Entry m) := by
  by_cases hword : i.operation.word = "condition"
  · obtain ⟨target, hmem, htarget⟩ := exists_jump_of_condition hword vars
    obtain ⟨m, hforward, hentry, j, hj, hid⟩ := hlinked.behind hmem
    obtain ⟨hlt, -⟩ := List.getElem?_eq_some_iff.1 hj
    have hplace := hplaces m j hj
    rw [hid] at hplace
    exact ⟨m, next_of_condition hword htarget hplace, hforward, hlt.le, .inr hentry⟩
  · obtain ⟨hlt, -⟩ := List.getElem?_eq_some_iff.1 hi
    exact ⟨k + 1, next_of_not_condition i k table vars hword, Nat.lt_succ_self k, hlt, .inl rfl⟩

/-- The places that a walk of at most `limit` steps visits from position `index` on, and where it
ends; each step that is visited finds the next variables. -/
def course (steps : List Json) (table : Table Nat) :
    Nat → (Nat → Variables) → Nat → Except Fault (List Nat × Nat)
  | 0, _, index => .ok ([], index)
  | limit + 1, vars, index =>
    match steps[index]? with
    | none => .ok ([], index)
    | some step => do
      let following ← next step index table (vars 0)
      let (visited, stop) ← course steps table limit (fun n => vars (n + 1)) following
      pure (index :: visited, stop)

/-- Through linked instructions a walk only goes forward, until it comes behind the last one. -/
theorem exists_course {p : Program} {table : Table Nat} (hplaces : Places p table)
    (hlinked : p.LinkedFrom 0 p) (limit : Nat) (vars : Nat → Variables) {k : Nat}
    (hk : k ≤ p.length) (hlimit : p.length ≤ k + limit) :
    ∃ visited, course (p.map Instruction.toJson) table limit vars k = .ok (visited, p.length) ∧
      visited.Pairwise (· < ·) ∧ ∀ m ∈ visited, k ≤ m := by
  induction limit generalizing k vars with
  -- No step is left, so the walk has come to the end.
  | zero =>
    obtain rfl : k = p.length := Nat.le_antisymm hk hlimit
    exact ⟨[], rfl, .nil, by simp⟩
  | succ limit ih =>
    rw [course]
    cases hi : p[k]? with
    | none =>
      obtain rfl : k = p.length := Nat.le_antisymm hk (List.getElem?_eq_none_iff.1 hi)
      exact ⟨[], by simp, .nil, by simp⟩
    | some i =>
      -- A linked instruction leads to one behind it; from there on the walk has one step less to
      -- go.
      have hhere := hlinked k i hi
      rw [Nat.zero_add] at hhere
      obtain ⟨m, hnext, hforward, hm, -⟩ := next_of_linked hplaces hi hhere (vars 0)
      obtain ⟨visited, hcourse, hvisited, hbehind⟩ :=
        ih (fun n => vars (n + 1)) hm (by omega)
      refine ⟨k :: visited, ?_, List.pairwise_cons.2 ⟨fun n hn => ?_, hvisited⟩, fun n hn => ?_⟩
      · rw [Program.getElem?_map_toJson hi]
        simp only [bind, Except.bind, hnext, hcourse, pure, Except.pure]
      · exact Nat.lt_of_lt_of_le hforward (hbehind n hn)
      · rcases List.mem_cons.1 hn with rfl | hn
        · exact Nat.le_refl n
        · exact (Nat.lt_of_lt_of_le hforward (hbehind n hn)).le

end Walk
end Casework
