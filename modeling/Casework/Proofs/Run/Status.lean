/-
  Casework.Proofs.Run.Status

  The statuses that runs report. A run of a program reports the statuses that its instructions set
  and, of its own, those for a timeout, the end and a failure, but only if they are declared; every
  other report leaves the status as it is. So what the outside keeps under such reports, it keeps
  under runs.
-/
import Casework.Proofs.Program.Jump
import Casework.Proofs.Result
import Casework.Proofs.Run.Whole
import Casework.Store.Column

namespace Casework

open Result

variable {σ : Type}

-- ============================================================================
-- Reports
-- ============================================================================

/-- The status of a report is one of some, if it has one. -/
def Run.Fits (statuses : List String) (params : Fields) : Prop :=
  ∀ status, Column.text (params.value "status") = .ok (some status) → status ∈ statuses

/-- A run uses a status of its own only if it is declared. -/
theorem mem_of_systemStatus {name : String} {declared : List String} (hne : declared ≠ [])
    {status : Option String} (h : systemStatus name (.texts declared) = .ok status) :
    ∀ s ∈ status, s ∈ declared := by
  have hgiven : (Json.texts declared).truthy = true := by
    simpa [Json.texts, Json.truthy] using hne
  rw [systemStatus, hgiven, if_neg (by simp)] at h
  have hholds : (Json.texts declared).holds name =
      .ok ((declared.map Json.text).any fun item => item.isTextOf name) := rfl
  -- The search succeeds, as all statuses are texts; it gives the name if this is among them.
  obtain ⟨held, hheld, rfl⟩ := map_eq_ok_iff.1 h
  rw [hholds] at hheld
  cases hheld
  intro s hs
  split at hs
  case isFalse => cases hs
  case isTrue hany =>
    cases hs
    obtain ⟨item, hitem, htext⟩ := List.any_eq_true.1 hany
    obtain ⟨status, hstatus, rfl⟩ := List.mem_map.1 hitem
    obtain rfl : status = name := by simpa [Json.isTextOf, Json.text?] using htext
    exact hstatus

namespace Run

/-- What a run reports at its end sets declared statuses only. -/
theorem endsWith_fits {declared : List String} (hne : declared ≠ []) (base : Base) :
    EndsWith (Fits declared) base (.texts declared) := by
  intro name status hstatus phase details reported hreported
  have hvalue : (base.params (endOf status phase details)).value "status" = .optText status := by
    cases details <;> rfl
  rw [hvalue] at hreported
  cases status with
  | none => cases hreported
  | some s =>
    cases hreported
    exact mem_of_systemStatus hne hstatus reported rfl

/-- A report that names no status fits. -/
theorem fits_of_null {declared : List String} {params : Fields}
    (h : params.value "status" = .null) : Fits declared params := by
  intro status hstatus
  rw [h] at hstatus
  cases hstatus

/-- Parameters with a declared status fit. -/
theorem fits_of_text {declared : List String} {params : Fields} {s : String}
    (h : params.value "status" = .text s) (hs : s ∈ declared) : Fits declared params := by
  intro status hstatus
  rw [h] at hstatus
  cases hstatus
  exact hs

end Run

-- ============================================================================
-- The outside
-- ============================================================================

/-- The outside keeps an invariant, whatever a run asks of it, as long as the reports are
allowed. -/
structure World.Respects (world : World σ) (reports : Fields → Prop) (inv : σ → Prop) : Prop where
  perform : ∀ call outside, (call.activity = .setState → reports call.params) → inv outside →
    inv (world.perform call outside).2
  deliver : ∀ outside, inv outside → inv (world.deliver outside).2
  arrive : ∀ outside, inv outside → inv (world.arrive outside).2

namespace Run

variable {world : World σ} {reports : Fields → Prop} {inv : σ → Prop}

/-- To have some work done keeps what holds of the world, if the reports do. -/
theorem outside_perform (h : world.Respects reports inv) {activity : Activity} {params : Fields}
    (hreport : activity = .setState → reports params) {s : RunState σ} (hs : inv s.outside) :
    inv (outcome (perform world activity params) s).2.outside := by
  have hafter := h.arrive _ (h.perform ⟨activity, params⟩ s.outside hreport hs)
  rw [outcome_perform]
  cases (world.perform ⟨activity, params⟩ s.outside).1 with
  | ok answer => exact hafter
  | error failure => exact hafter

/-- To wait keeps what holds of the world. -/
theorem outside_await (h : world.Respects reports inv) (seconds : Int) (holds : Inbox → Bool)
    {s : RunState σ} (hs : inv s.outside) :
    inv (outcome (await world seconds holds) s).2.outside := by
  have hafter := h.deliver s.outside hs
  rw [outcome_await]
  split
  · exact hs
  · cases (s.inbox.receiveAll (world.deliver s.outside).1).2 with
    | ok _ => exact hafter
    | error f => exact hafter

/-- What the outside keeps lasts, whether a run fails or not. -/
theorem lasting_outside (h : world.Respects reports inv) :
    Lasting world reports (fun _ => True) (fun _ => True) (fun s => inv s.outside)
      fun _ s => True ∧ inv s.outside := by
  refine ⟨⟨fun s s' houtside _ _ _ hs => houtside ▸ hs, fun _ _ _ _ hs => hs, ?_, ?_, ?_, ?_,
    fun _ _ hs => ⟨trivial, hs⟩⟩, fun _ _ hs => hs⟩
  · intro activity params hactivity _
    exact .of_always (fun s => outside_perform h fun hset => absurd hset hactivity)
      fun _ _ _ => trivial
  · intro params _
    exact .of_always (fun s => outside_perform h fun hset => by cases hset) fun _ _ _ => trivial
  · intro params hreport
    exact .of_always (fun s => outside_perform h fun _ => hreport) fun _ _ _ => trivial
  · exact .of_always (fun s => outside_await h _ _) fun _ _ _ => trivial

-- ============================================================================
-- Runs of programs
-- ============================================================================

/-- The status that an instruction sets, read back from its document, is the one that it names. -/
theorem status_of_toJson {i : Instruction} {status : Json}
    (htype : i.toJson.fieldOf "type" = .ok (.text "update_status"))
    (hstatus : ((i.toJson.field "config").orElse (.obj [])).fieldOf "status" = .ok status) :
    ∃ s, i.operation = .work (.setStatus s) ∧ status = .text s := by
  rw [i.fieldOf_type] at htype
  have hword : i.operation.word = "update_status" := by simpa using htype
  rw [i.field_config] at hstatus
  match hoperation : i.operation with
  | .work (.setStatus s) =>
    rw [hoperation] at hstatus
    cases hstatus
    exact ⟨s, rfl, rfl⟩
  | .work (.createTask _) | .work (.sendMail _) | .work (.notify _) | .start .. | .mark
  | .awaitTask .. | .branch .. | .goto _ =>
    rw [hoperation] at hword
    exact absurd hword (by simp [Operation.word, Work.word])

/-- What the outside keeps while declared statuses are reported it keeps while a program runs that
sets no other ones. -/
theorem outside_run {declared : List String} (hne : declared ≠ [])
    (h : world.Respects (Fits declared) inv) {params : Fields} {p : Program}
    (hsteps : (params.value "steps").givenItemsOf = .ok (p.map Instruction.toJson))
    (hstatuses : params.value "statuses" = .texts declared)
    (hset : ∀ i ∈ p, ∀ status, i.operation = .work (.setStatus status) → status ∈ declared)
    {s : RunState σ} (hs : inv s.outside) : inv (outcome (run world params) s).2.outside := by
  have hlasting := lasting_outside h
  have hrun : Keeps (run world params) (fun s => inv s.outside) fun _ s => True ∧
      inv s.outside := by
    -- Two things can set a status: the end of a run, and the instructions that do.
    refine hlasting.run (fun _ _ hs => hs) (fun setup hsetup => ?_) fun setup hsetup => ?_
    · rw [hsetup.statuses, hstatuses]
      exact endsWith_fits hne _
    · have hends := endsWith_fits hne setup.base
      rw [← hstatuses, ← hsetup.statuses] at hends
      obtain hsame : p.map Instruction.toJson = setup.steps := by
        simpa [hsteps] using hsetup.steps
      refine hlasting.interpret (fun _ hs => ⟨trivial, hs⟩) (fun step hstep => ?_) _ _
      rw [← hsame] at hstep
      -- The step comes from an instruction; if it sets a status, this is a declared one.
      obtain ⟨i, hi, rfl⟩ := List.mem_map.1 hstep
      refine hlasting.execute _ _ (fun _ => trivial) (fun _ _ _ => trivial)
        (fun htype status hstatus => ?_) fun _ =>
        hlasting.awaitTask (fits_of_null rfl) (fun _ _ _ _ => trivial)
          (fun _ _ _ hs _ => ⟨trivial, hs⟩)
          fun task => hlasting.timeOut hends task
      obtain ⟨named, hnamed, rfl⟩ := status_of_toJson htype hstatus
      exact fits_of_text rfl (hset i hi named hnamed)
  have hended := hrun s hs
  rcases houtcome : outcome (run world params) s with ⟨result, s'⟩
  rw [houtcome] at hended
  cases result with
  | ok _ => exact hended
  | error f => exact hended.2

end Run
end Casework
