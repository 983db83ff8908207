/-
  Casework.Proofs.Program.Jump

  What a walk does at an instruction of a program. A walk reads documents, so the first facts say
  what it finds in the document of an instruction; then the table of a program with distinct ids
  leads from each id to its place, and so every instruction goes where it says.
-/
import Casework.Program.Instruction
import Casework.Program.Walk
import Mathlib.Data.List.Nodup

namespace Casework

-- ============================================================================
-- The document of an instruction
-- ============================================================================

theorem Entries.get?_putSome {α : Type} (entries : Entries α) (name other : String)
    (value : Option α) (h : other ≠ name) :
    (entries.putSome name value).get? other = entries.get? other := by
  cases value with
  | none => rfl
  | some value => rw [putSome, get?_put, if_neg h]

namespace Instruction

theorem requiredField_id (i : Instruction) : i.toJson.requiredField "id" = .ok (.text i.id) := by
  rw [toJson, Json.requiredField, Entries.get?_putSome _ _ _ _ (by decide)]
  rfl

theorem field_id (i : Instruction) : i.toJson.field "id" = .text i.id := by
  rw [toJson, Json.field, Entries.value, Entries.get?_putSome _ _ _ _ (by decide)]
  rfl

/-- The type in the document of an instruction is the word of its operation. -/
theorem field_type (i : Instruction) : i.toJson.field "type" = .text i.operation.word := by
  rw [toJson, Json.field, Entries.value, Entries.get?_putSome _ _ _ _ (by decide)]
  rfl

theorem fieldOf_type (i : Instruction) :
    i.toJson.fieldOf "type" = .ok (.text i.operation.word) := by
  rw [← field_type]
  rfl

/-- The config in the document of an instruction is that of its operation. -/
theorem field_config (i : Instruction) : i.toJson.field "config" = i.operation.config := by
  rw [toJson, Json.field, Entries.value, Entries.get?_putSome _ _ _ _ (by decide)]
  rfl

end Instruction

-- ============================================================================
-- The table of a program
-- ============================================================================

namespace Walk

/-- The table with the places of instructions from place `index` on. -/
def places (table : Table Nat) (index : Nat) : Program → Table Nat
  | [] => table
  | i :: rest => places (table.put (.text i.id) index) (index + 1) rest

/-- Puts the place of a step into a table, and goes on to the next place. -/
def putPlace (state : Table Nat × Nat) (step : Json) : Except Fault (Table Nat × Nat) := do
  let id ← step.requiredField "id"
  let key ← id.key
  .ok (state.1.put key state.2, state.2 + 1)

theorem gotoTable_eq_foldlM (steps : List Json) :
    gotoTable steps = Prod.fst <$> steps.foldlM putPlace ([], 0) := rfl

theorem putPlace_toJson (i : Instruction) (table : Table Nat) (index : Nat) :
    putPlace (table, index) i.toJson = .ok (table.put (.text i.id) index, index + 1) := by
  rw [putPlace, i.requiredField_id]
  rfl

theorem foldlM_putPlace (p : Program) (table : Table Nat) (index : Nat) :
    (p.map Instruction.toJson).foldlM putPlace (table, index) =
      .ok (places table index p, index + p.length) := by
  induction p generalizing table index with
  | nil => rfl
  | cons i rest ih =>
    rw [List.map_cons, List.foldlM_cons, putPlace_toJson, List.length_cons,
      Nat.add_comm rest.length,
      ← Nat.add_assoc]
    exact ih (table.put (.text i.id) index) (index + 1)

/-- The table that a run makes has the place of every instruction under its id. -/
theorem gotoTable_toJson (p : Program) :
    gotoTable (p.map Instruction.toJson) = .ok (places [] 0 p) := by
  rw [gotoTable_eq_foldlM, foldlM_putPlace]
  rfl

/-- For an id that no instruction has, the table is as it was. -/
theorem get?_places_of_not_mem (p : Program) (table : Table Nat) (index : Nat) {id : String}
    (h : id ∉ p.map Instruction.id) :
    (places table index p).get? (.text id) = table.get? (.text id) := by
  induction p generalizing table index with
  | nil => rfl
  | cons i rest ih =>
    rw [List.map_cons, List.mem_cons, not_or] at h
    rw [places, ih _ _ h.2, Table.get?_put_text, if_neg h.1]

/-- Where ids differ, an id leads to the place of its instruction. -/
theorem get?_places (p : Program) (table : Table Nat) (index k : Nat) {i : Instruction}
    (hnodup : (p.map Instruction.id).Nodup) (h : p[k]? = some i) :
    (places table index p).get? (.text i.id) = some (index + k) := by
  induction p generalizing table index k with
  | nil => simp at h
  | cons first rest ih =>
    rw [List.map_cons, List.nodup_cons] at hnodup
    rw [places]
    cases k with
    | zero =>
      obtain rfl : first = i := by simpa using h
      rw [get?_places_of_not_mem _ _ _ hnodup.1, Table.get?_put_text, if_pos rfl, Nat.add_zero]
    | succ k =>
      rw [ih _ (index + 1) k hnodup.2 (by simpa using h)]
      congr 1
      omega

-- ============================================================================
-- Where instructions go
-- ============================================================================

theorem renderJson_text (s : String) (vars : Fields) :
    Template.renderJson (.text s) vars = .ok (Template.render s vars) := by
  rw [Template.renderJson]
  by_cases h : s = ""
  · subst h
    rfl
  · rw [if_neg (by simpa [Json.truthy] using h)]

/-- The target of the first value that a text equals, else the last one. -/
def targetOf (value : String) (targets : List (String × String)) (otherwise : String) : String :=
  (targets.lookup value).getD otherwise

theorem branchTarget?_cons_branchEntry (value candidate target : String) (rest : List Json) :
    branchTarget? value (branchEntry candidate target :: rest) =
      if candidate = value then .ok (some (.text target)) else branchTarget? value rest := by
  have hstep : branchTarget? value (branchEntry candidate target :: rest) =
      if (Json.text candidate).isTextOf value then .ok (some (.text target))
      else branchTarget? value rest := rfl
  rw [hstep]
  by_cases h : candidate = value
  · rw [if_pos h, if_pos (by simp [Json.isTextOf, Json.text?, h])]
  · rw [if_neg h, if_neg (by simp [Json.isTextOf, Json.text?, h])]

/-- Among the entries of a branch the first one for the value counts. -/
theorem branchTarget?_map_branchEntry (value : String) (targets : List (String × String)) :
    branchTarget? value (targets.map fun (value, target) => branchEntry value target) =
      .ok ((targets.lookup value).map .text) := by
  induction targets with
  | nil => rfl
  | cons entry rest ih =>
    obtain ⟨candidate, target⟩ := entry
    rw [List.map_cons, branchTarget?_cons_branchEntry, List.lookup_cons]
    by_cases h : candidate = value
    · subst h
      simp
    · have hne : (value == candidate) = false := beq_eq_false_iff_ne.2 fun he => h he.symm
      rw [if_neg h, ih, hne]

/-- A branch leads to the target for what its field shows. -/
theorem conditionTarget_branch (field : String) (comparison : Comparison)
    (targets : List (String × String)) (otherwise : String) (vars : Variables) :
    conditionTarget (Operation.branch field comparison targets otherwise).config vars =
      .ok (.text (targetOf (Template.render field vars) targets otherwise)) := by
  have hfield : (Operation.branch field comparison targets otherwise).config.fieldOf "field" =
      .ok (.text field) := rfl
  have hbranches : ((Operation.branch field comparison targets otherwise).config.field
      "branches").givenItemsOf =
      .ok (targets.map fun (value, target) => branchEntry value target) := by
    cases targets <;> rfl
  have hdefault : (Operation.branch field comparison targets otherwise).config.field
      "defaultGotoStepId" = .text otherwise := rfl
  rw [conditionTarget, hfield, hbranches, hdefault]
  simp only [bind, Except.bind, renderJson_text, branchTarget?_map_branchEntry, targetOf]
  cases targets.lookup (Template.render field vars) <;> rfl

/-- A jump leads to its target, whatever the variables are. -/
theorem conditionTarget_goto (target : String) (vars : Variables) :
    conditionTarget (Operation.goto target).config vars = .ok (.text target) := rfl

/-- An instruction that is no condition goes on to the next place. -/
theorem next_of_not_condition (i : Instruction) (index : Nat) (table : Table Nat) (vars : Variables)
    (h : i.operation.word ≠ "condition") : next i.toJson index table vars = .ok (index + 1) := by
  have hkind : (Json.text i.operation.word).isTextOf "condition" = false := by
    simpa [Json.isTextOf, Json.text?] using h
  rw [next, jump?, i.fieldOf_type]
  simp only [bind, Except.bind, hkind]
  rfl

/-- A condition goes to the place of its target. -/
theorem next_of_condition {i : Instruction} {index place : Nat} {table : Table Nat}
    {vars : Variables} {target : String} (hword : i.operation.word = "condition")
    (htarget : conditionTarget i.operation.config vars = .ok (.text target))
    (hplace : table.get? (.text target) = some place) :
    next i.toJson index table vars = .ok place := by
  have hconfig : (i.toJson.field "config").orElse (.obj []) = i.operation.config := by
    rw [i.field_config]
    cases hop : i.operation with
    | work w => rw [hop] at hword; cases w <;> simp [Operation.word, Work.word] at hword
    | start | mark | awaitTask => rw [hop] at hword; simp [Operation.word] at hword
    | branch | goto => rfl
  rw [next, jump?, i.fieldOf_type, hconfig, hword]
  simp only [bind, Except.bind, htarget, Json.key, Functor.map, Except.map, hplace]
  rfl

end Walk
end Casework
