/-
  Casework.Proofs.Program.Audience

  Whom the notices of a definition are for. What an author writes down of the recipients becomes the
  audience of an instruction, its references resolved; at run time the texts of the audience are
  rendered. Neither step changes what kind of audience it is, and checked recipients are of one of
  the four kinds: nothing but recipients that name the organization goes to the organization.
-/
import Casework.Program.Instruction
import Casework.Proofs.Program.Authors
import Casework.Proofs.Program.Jump

namespace Casework

open Result

namespace Audience

/-- An audience with its texts put through a function. -/
def map (f : String → String) : Audience → Audience
  | .organization => .organization
  | .user text => .user (f text)
  | .role name => .role (f name)
  | .groups names => .groups (names.map f)

/-- Texts that are put through two functions, one after the other, are put through both. -/
theorem written_comp (f g : String → String) (recipients : Fields) :
    written (fun s => g (f s)) recipients = (written f recipients).map (map g) := by
  rw [written, written]
  split
  · rfl
  · rfl
  · rfl
  · rw [Option.map_some, map, List.map_map]
    rfl
  · rfl

-- ============================================================================
-- At run time
-- ============================================================================

/-- The texts of an audience are rendered, and it stays of its kind. -/
theorem rendered_toJson (audience : Audience) (vars : Fields) :
    rendered audience.toJson vars = .ok (audience.map fun s => Template.render s vars) := by
  cases audience with
  | organization => rfl
  | user text =>
    show Audience.user <$> Template.renderJson (.text text) vars = _
    rw [Walk.renderJson_text]
    rfl
  | role name =>
    show Audience.role <$> Template.renderJson (.text name) vars = _
    rw [Walk.renderJson_text]
    rfl
  -- Each group is a text, so rendering them one by one cannot fail.
  | groups names =>
    have hitems : (Json.texts names).givenItemsOf = .ok (names.map .text) := by cases names <;> rfl
    have hall : (names.map Json.text).mapM (fun item => Template.renderJson item vars) =
        .ok (names.map fun s => Template.render s vars) := by
      rw [List.mapM_map]
      exact mapM_eq_ok_map fun name _ => Walk.renderJson_text name vars
    show (do
      let items ← (Json.texts names).givenItemsOf
      Audience.groups <$> items.mapM fun item => Template.renderJson item vars) = _
    rw [hitems, ok_bind, hall]
    rfl

end Audience

-- ============================================================================
-- In a definition
-- ============================================================================

namespace Definition

variable {d : Definition} {p : Program}

/-- A text of an action as its instruction has it. -/
def resolvedText (d : Definition) (action : Action) (name : String) : String :=
  Template.resolved (Template.keysOf d.vars) ((action.config.value name).text?.getD "")

/-- The instruction of a notification gives the notice that is written down, to whom it is written
down for. -/
theorem notify_of_authors (h : d.compile = .ok p) {action : Action} {i : Instruction}
    (hauthors : d.Authors p action i) (hkind : action.kind = "notification") :
    ∃ recipients audience, action.config.value "recipients" = .object recipients ∧
      Audience.written (Template.resolved (Template.keysOf d.vars)) recipients = some audience ∧
      i.operation = .work (.notify {
        audience
        title := d.resolvedText action "title"
        message := d.resolvedText action "message" }) := by
  obtain ⟨seen, place, step, hfine⟩ := actionIssues_of_compile h hauthors.mem.1
  have hissues := (List.append_eq_nil_iff.1 hfine).2
  rw [hkind, if_pos (by decide), List.append_eq_nil_iff] at hissues
  obtain ⟨recipients, audience, hvalue, hwritten, hnotice⟩ :=
    Plan.noticeOf_eq (Template.keysOf d.vars) hissues.1
  obtain ⟨work, hwork, hoperation⟩ := Authors.does h hauthors
  rw [hkind, Plan.workOf, hnotice] at hwork
  cases hwork
  exact ⟨recipients, audience, hvalue, hwritten, hoperation⟩

end Definition
end Casework
