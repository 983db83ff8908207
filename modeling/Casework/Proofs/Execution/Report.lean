/-
  Casework.Proofs.Execution.Report

  What reports do to executions. A report is taken by one execution, whose status afterwards is the
  reported one, or the one from before if none is reported.
-/
import Casework.Execution.Store
import Casework.Proofs.Result
import Casework.Proofs.Store.Frame

namespace Casework

open Store Result

/-- A failure of the store is the only one that is added. -/
theorem Failure.ofStore_eq_ok {α : Type} {x : Except StoreFault α} {a : α}
    (h : Failure.ofStore x = .ok a) : x = .ok a := by
  cases x with
  | ok b => cases h; rfl
  | error e => cases h

namespace Execution.Report

/-- A report leaves an execution what it is, and sets its status if it names one. -/
theorem fields_of_apply {r : Report} {moment : Moment} {e e' : Execution}
    (h : r.apply moment e = .ok e') :
    e'.id = e.id ∧ e'.org = e.org ∧
      ∃ status, Column.text r.status = .ok status ∧ e'.status = status.getD e.status := by
  obtain ⟨details, -, hcolumns⟩ := bind_eq_ok_iff.1 h
  obtain ⟨status, hstatus, hrest⟩ := bind_eq_ok_iff.1 (Failure.ofStore_eq_ok hcolumns)
  iterate 2 obtain ⟨_, -, hrest⟩ := bind_eq_ok_iff.1 hrest
  cases hrest
  exact ⟨rfl, rfl, status, hstatus, rfl⟩

/-- A report leaves an execution its program. -/
theorem steps_of_apply {r : Report} {moment : Moment} {e e' : Execution}
    (h : r.apply moment e = .ok e') : e'.steps = e.steps := by
  obtain ⟨details, -, hcolumns⟩ := bind_eq_ok_iff.1 h
  obtain ⟨_, -, hrest⟩ := bind_eq_ok_iff.1 (Failure.ofStore_eq_ok hcolumns)
  iterate 2 obtain ⟨_, -, hrest⟩ := bind_eq_ok_iff.1 hrest
  cases hrest
  rfl

end Execution.Report

namespace Store

/-- Looking up a record leaves the session as it was, and finds the first one of its id in the
organization. -/
theorem result_findBy (ρ : Type) [Record ρ] (id org : Json) (s : Session) :
    ∃ found, result (findBy? id org : Tx (Option ρ)) s = (found, s) ∧
      ∀ r, found = .ok (some r) → Column.text org = .ok (some (Record.org r)) ∧
        (Record.all s.working).find? (Record.isOf (Record.id r) (Record.org r)) = some r := by
  rw [findBy?, result_bind]
  -- An id or an organization that is no text ends the search with a failure.
  rcases Column.text id with f | id?
  · exact ⟨_, rfl, fun r hr => by cases hr⟩
  · rw [show result (liftColumn (.ok id?)) s = (.ok id?, s) from rfl]
    dsimp only
    rw [result_bind]
    rcases horg : Column.text org with f | org?
    · exact ⟨_, rfl, fun r hr => by cases hr⟩
    · rw [show result (liftColumn (.ok org?)) s = (.ok org?, s) from rfl]
      dsimp only
      split
      case h_2 => exact ⟨_, rfl, fun r hr => by cases hr⟩
      -- What is found is what the search would find by the id and the organization of the row
      -- itself.
      case h_1 id org =>
        refine ⟨_, rfl, fun r hr => ?_⟩
        have hfound : (Record.all s.working).find? (Record.isOf id org) = some r := Except.ok.inj hr
        have hof := List.find?_some hfound
        simp only [Record.isOf, Bool.and_eq_true, beq_iff_eq] at hof
        rw [hof.1, hof.2]
        exact ⟨rfl, hfound⟩

/-- A report moves records on as the execution does that takes it. -/
theorem moves_reportExecution {R : Progress} (id org : Json) (r : Execution.Report)
    (h : ∀ (records : Records) (moment : Moment) (e e' : Execution),
      Column.text org = .ok (some e.org) →
      records.executions.find? (Record.isOf e.id e.org) = some e → r.apply moment e = .ok e' →
        R.rel records (Record.replace (records.executions.map fun x =>
          if Record.isOf e'.id e'.org x then e' else x) records)) :
    Moves R (reportExecution id org r) := by
  intro s
  obtain ⟨found, hfind, hfound⟩ := result_findBy Execution id org s
  rw [reportExecution, result_bind, hfind]
  rcases found with f | none | e
  · exact .refl R s
  · exact .refl R s
  · dsimp only
    rw [result_bind, result_bareNow]
    dsimp only
    rw [result_bind, result_lift]
    cases happly : r.apply s.now.bare e with
    | error f => exact .refl R s
    | ok e' => exact ⟨h s.working _ e e' (hfound e rfl).1 (hfound e rfl).2 happly, rfl, rfl⟩

end Store
end Casework
