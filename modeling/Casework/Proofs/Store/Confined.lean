/-
  Casework.Proofs.Store.Confined

  The operations of the store that are confined to an organization. Each of them is told which
  organization it is for: it looks records up by it, and puts new ones under it with ids that are
  handed out. The operations are taken one by one; what calls them need not look into them.
-/
import Casework.Proofs.Execution.Start
import Casework.Proofs.Store.View
import Casework.Task.Service

namespace Casework

open Store Result

/-- An act is local to an organization, and ids that are still to be handed out stay unused. -/
abbrev Store.Confined {α : Type} (org : String) (act : Tx α) : Prop :=
  Local org Session.Unused Session.Unused act

namespace Store

variable {α β ρ : Type} {org : String} {pre post : Session → Prop}

-- ============================================================================
-- Acts that go on with what is known
-- ============================================================================

/-- The rest of the work knows the result that was there. -/
theorem Local.lift_bind {x : Except Failure α} {next : α → Tx β}
    (hnext : ∀ a, x = .ok a → Local org pre post (next a)) (hpost : ∀ s, pre s → post s) :
    Local org pre post (Store.lift x >>= next) :=
  .bind_knowing (.lift x) (fun a => x = .ok a)
    (fun _ _ _ h => (result_lift_eq_ok_iff.1 h).1) hnext hpost

theorem Local.liftColumn_bind {x : Except StoreFault α} {next : α → Tx β}
    (hnext : ∀ a, x = .ok a → Local org pre post (next a)) (hpost : ∀ s, pre s → post s) :
    Local org pre post (Store.liftColumn x >>= next) :=
  .lift_bind (fun a ha => hnext a (Failure.ofStore_eq_ok ha)) hpost

/-- The rest of the work knows that a record that was found is the one that was looked for. -/
theorem Local.find?_bind [Record ρ] [Record.Lawful ρ] {id : String} {next : Option ρ → Tx β}
    (hnone : Local org pre post (next none))
    (hsome : ∀ r : ρ, Record.isOf id org r → Local org pre post (next (some r)))
    (hpost : ∀ s, pre s → post s) : Local org pre post (Store.find? id org >>= next) := by
  refine .bind_knowing (.find? id) (fun found => ∀ r ∈ found, Record.isOf id org r)
    (fun s found s' hfind r hr => ?_) (fun found hfound => ?_) hpost
  · obtain ⟨hfound, -⟩ := Prod.mk.inj hfind
    have hsearch : (Record.all s.working).find? (Record.isOf id org) = found := Except.ok.inj hfound
    rw [Option.mem_def.1 hr] at hsearch
    exact List.find?_some hsearch
  · cases found with
    | none => exact hnone
    | some r => exact hsome r (hfound r rfl)

/-- An id is handed out where none is given. -/
theorem Local.identify_null_bind {kind : RecordKind} {next : Json → Tx β}
    (hnext : ∀ id, Local org (fun s => s.Offers kind id) post (next (.text id))) :
    Local org Session.Unused post (identify kind .null >>= next) := by
  have hidentify : identify kind .null >>= next = freshId kind >>= fun id => next (.text id) := by
    have hnull : identify kind .null = Json.text <$> freshId kind := rfl
    rw [hnull, bind_map_left]
  rw [hidentify]
  exact .freshId_bind hnext

/-- A record that is changed to another one with its id and its organization. -/
theorem Local.replace [Record ρ] [Record.Lawful ρ] {id eorg : String} {r : ρ}
    (h : Record.isOf id eorg r) : Confined org (Store.change (Record.isOf id eorg) fun _ => r) := by
  simp only [Record.isOf, Bool.and_eq_true, beq_iff_eq] at h
  refine .change fun x hx => ?_
  simp only [Record.isOf, Bool.and_eq_true, beq_iff_eq] at hx
  exact ⟨h.2.trans hx.2.symm, h.1.trans hx.1.symm⟩

-- ============================================================================
-- Audit trail and notices
-- ============================================================================

/-- An entry of the trail is one of the organization. -/
theorem confined_record (user : Option String) (entityKind entity action : String)
    (details : Json) :
    Confined org (record org user entityKind entity action details) := by
  refine .tryCatch (.freshId_bind fun id => .bind .bareNow (fun moment => ?_) fun _ hs => hs.unused)
    fun _ => .rollback
  refine .get_bind (fun t => .ite (.mono (.throw _) fun _ hs => hs.unused) ?_) fun _ => rfl
  exact .add_offered (r := AuditEntry.mk id org user entityKind entity action details moment)
    rfl (fun _ => rfl) fun x hclash => (beq_iff_eq.1 hclash).symm

/-- A notice is one of the organization. -/
theorem confined_createNotice (d : NoticeDraft) : Confined org (createNotice (.text org) d) := by
  refine .freshId_bind fun id => .bind .bareNow (fun moment => ?_) fun _ hs => hs.unused
  refine .liftColumn_bind (fun n hn => ?_) fun _ hs => hs.unused
  obtain ⟨rfl, horg⟩ := keys_of_notice hn
  have hown : n.org = org := (Option.some.inj (Except.ok.inj horg)).symm
  exact .bind (.add_offered (r := n) hown (fun _ => rfl) fun x hclash => (beq_iff_eq.1 hclash).symm)
    (fun _ => .pure _) fun _ hs => hs

/-- To tell somebody of a task writes to the organization only. -/
theorem confined_tellAssigned (user : Json) (task title : String) (assignedBy : Option String) :
    Confined org (tellAssigned (.text org) user task title assignedBy) := by
  unfold tellAssigned
  extract_lets own
  split
  · exact .discard (confined_createNotice _)
  · exact .pure _

-- ============================================================================
-- Members, policies and addresses
-- ============================================================================

theorem local_membership? (user : String) : Local org pre pre (membership? org user) := by
  refine .andThen (.select fun m hm => ?_) fun _ => .pure _
  exact beq_iff_eq.1 (Bool.and_eq_true_iff.1 hm).1

theorem confined_policiesOf : Confined org (policiesOf org) := by
  refine .andThen (.select fun p hp => ?_) fun _ => .pure _
  exact beq_iff_eq.1 (Bool.and_eq_true_iff.1 hp).1

theorem local_senderList? : Local org pre pre (senderList? (.text org)) := by
  have hlist : senderList? (.text org) =
      (do return (← select fun l : SenderList => l.org == org).head?) := rfl
  rw [hlist]
  exact .andThen (.select fun l hl => beq_iff_eq.1 hl) fun _ => .pure _

/-- The senders of an organization are read from it only. -/
theorem confined_sendersOf : Confined org (sendersOf (.text org)) := by
  refine .andThen local_senderList? fun kept => ?_
  cases kept with
  | none => exact .pure _
  | some kept => exact .pure _

/-- To submit senders writes to the organization only. -/
theorem confined_setSenders (submitted : Json) : Confined org (setSenders org submitted) := by
  unfold setSenders
  split
  · exact .throw _
  · refine .andThen .bareNow fun moment => .andThen local_senderList? fun kept => ?_
    -- A list of senders has no id that is handed out, so the ids are as they were.
    have hids : ∀ (l : List SenderList) (r : Records) (kind : RecordKind),
        (Record.replace l r).ids kind = r.ids kind := by
      intro l r kind
      cases kind <;> rfl
    cases kept with
    -- The organization has no list yet, and gets one; two lists of one organization would clash.
    | none =>
      refine .andThen (.add (ρ := SenderList) rfl
        (fun s _ x _ hclash => (beq_iff_eq.1 hclash).symm) fun s hs => ⟨hs, ?_⟩) fun _ => .pure _
      refine hs.of_ids (fun _ => Nat.le_refl _) fun kind id hused => .inl ?_
      exact hused.imp_left fun h => by rwa [hids] at h
    -- It has one, which is changed.
    | some kept =>
      dsimp only
      split
      · exact .pure _
      · exact .andThen (.change (ρ := SenderList) fun _ _ => ⟨rfl, rfl⟩) fun _ => .pure _

-- ============================================================================
-- Tasks
-- ============================================================================

/-- No write changes the id or the organization of a task. -/
theorem keys_writeApply (w : Task.Write) (moment : Moment) (t : Task) :
    (w.apply moment t).org = t.org ∧ (w.apply moment t).id = t.id := by
  cases w <;> exact ⟨rfl, rfl⟩

/-- To write a task writes to the organization only. -/
theorem confined_writeTask (w : Task.Write) (id : String) : Confined org (writeTask w id org) := by
  refine .andThen .bareNow fun moment => .find?_bind (.pure _) (fun t _ => ?_) fun _ hs => hs
  dsimp only
  split
  · exact .andThen (.change fun r _ => keys_writeApply w moment r) fun _ => .find? id
  · exact .pure _

/-- To update a task writes to the organization only. -/
theorem confined_updateTask (id : String) (given : Fields) :
    Confined org (updateTask id org given) := by
  refine .find?_bind (.pure _) (fun t ht => .andThen (.lift _) fun changes =>
    .andThen .now fun moment => .andThen (.replace ?_) fun _ => .pure _) fun _ hs => hs
  exact ht

-- ============================================================================
-- Contacts and definitions
-- ============================================================================

/-- To update a contact writes to the organization only. -/
theorem confined_updateContact (id : String) (payload : Fields) :
    Confined org (updateContact id org payload) := by
  refine .find?_bind (.pure _) (fun c hc => .andThen (.lift _) fun values =>
    .andThen (.liftColumn _) fun kept => .andThen .now fun moment => .andThen (.replace ?_) fun _ =>
      .pure _) fun _ hs => hs
  exact hc

/-- A definition that is kept has the id and the organization that it was given. -/
theorem keys_of_definition {d : DefinitionDraft} {id : Json} {moment : Moment}
    {r : DefinitionRecord}
    (h : d.record id (.text org) moment = .ok r) :
    Column.text id = .ok (some r.id) ∧ r.org = org := by
  obtain ⟨id?, hid, h⟩ := bind_eq_ok_iff.1 h
  obtain ⟨_, horg, h⟩ := bind_eq_ok_iff.1 h
  cases horg
  iterate 2 obtain ⟨_, -, h⟩ := bind_eq_ok_iff.1 h
  obtain ⟨_, hrequired, h⟩ := bind_eq_ok_iff.1 h
  obtain ⟨_, horg, h⟩ := bind_eq_ok_iff.1 h
  cases horg
  obtain ⟨_, -, h⟩ := bind_eq_ok_iff.1 h
  cases h
  cases id? with
  | none => cases hrequired
  | some id =>
    cases hrequired
    exact ⟨hid, rfl⟩

-- ============================================================================
-- Executions
-- ============================================================================

/-- A drafted execution has the id and the organization that it is given. -/
theorem keys_of_execution {d : ExecutionDraft} {id : String} {moment : Moment} {e : Execution}
    (h : d.execution (.text id) (.text org) moment = .ok e) : e.id = id ∧ e.org = org := by
  rw [ExecutionDraft.execution] at h
  obtain ⟨_, hid, h⟩ := bind_eq_ok_iff.1 h
  cases hid
  obtain ⟨_, horg, h⟩ := bind_eq_ok_iff.1 h
  cases horg
  iterate 5 obtain ⟨_, -, h⟩ := bind_eq_ok_iff.1 h
  obtain ⟨_, hid, h⟩ := bind_eq_ok_iff.1 h
  cases hid
  obtain ⟨_, horg, h⟩ := bind_eq_ok_iff.1 h
  cases horg
  iterate 2 obtain ⟨_, -, h⟩ := bind_eq_ok_iff.1 h
  cases h
  exact ⟨rfl, rfl⟩

/-- To create an execution writes to the organization only. -/
theorem confined_createExecution {d : ExecutionDraft} (hd : d.id = .null) :
    Confined org (createExecution (.text org) d) := by
  unfold createExecution
  rw [hd]
  refine .identify_null_bind fun id => .bind .bareNow (fun moment => ?_) fun _ hs => hs.unused
  refine .liftColumn_bind (fun e he => ?_) fun _ hs => hs.unused
  obtain ⟨rfl, horg⟩ := keys_of_execution he
  exact .bind (.add_offered (r := e) horg (fun _ => rfl) fun x hclash => (beq_iff_eq.1 hclash).symm)
    (fun _ => .pure _) fun _ hs => hs

theorem confined_nameRun (id eorg workflow : String) (run : Option String) :
    Confined org (nameRun id eorg workflow run) :=
  .andThen .bareNow fun _ => .change fun _ _ => ⟨rfl, rfl⟩

/-- To report about an execution writes to the organization only. -/
theorem confined_reportExecution (id : String) (r : Execution.Report) :
    Confined org (reportExecution (.text id) (.text org) r) := by
  have hfind : (findBy? (.text id) (.text org) : Tx (Option Execution)) = Store.find? id org := rfl
  unfold reportExecution
  rw [hfind]
  refine .find?_bind (.pure _) (fun e _ => .andThen .bareNow fun moment =>
    .andThen (.lift _) fun e' =>
    .andThen (.replace ?_) fun _ => .pure _) fun _ hs => hs
  simp [Record.isOf, Record.id, Record.org]

end Store
end Casework
