/-
  Casework.Proofs.Store.Commuting

  Acts that do not heed something about the session. Such an act commutes with altering the session:
  it gives the same before and after the alteration, and what it leaves is altered in the same way.
  What the store does heeds neither the engine nor the audit trail, except where it asks the engine
  for something or asks for an entry.
-/
import Casework.Contact.Store
import Casework.Definition.Store
import Casework.Proofs.Store.Audit
import Casework.Task.Service

namespace Casework

namespace Store

variable {α β ρ : Type} [Record ρ] {f : Session → Session} {act : Tx α}

/-- An act gives the same in an altered session, and leaves what it leaves otherwise, altered. -/
def Commutes (f : Session → Session) (act : Tx α) : Prop :=
  ∀ s, result act (f s) = ((result act s).1, f (result act s).2)

-- ============================================================================
-- Composition
-- ============================================================================

namespace Commutes

theorem pure (a : α) : Commutes f (pure a : Tx α) := fun _ => rfl

theorem throw (failure : Failure) : Commutes f (throw failure : Tx α) := fun _ => rfl

theorem lift (x : Except Failure α) : Commutes f (Store.lift x) := fun _ => rfl

theorem liftFault (x : Except Fault α) : Commutes f (Store.liftFault x) := fun _ => rfl

theorem liftColumn (x : Except StoreFault α) : Commutes f (Store.liftColumn x) := fun _ => rfl

/-- One act after another commutes with a change if both do. -/
theorem bind {next : α → Tx β} (h : Commutes f act) (hnext : ∀ a, Commutes f (next a)) :
    Commutes f (act >>= next) := by
  intro s
  rw [result_bind, result_bind, h s]
  rcases result act s with ⟨failure | a, s'⟩
  · rfl
  · exact hnext _ s'

theorem map (g : α → β) (h : Commutes f act) : Commutes f (g <$> act) := by
  intro s
  rw [result_map, result_map, h s]

theorem ite {c : Prop} [Decidable c] {other : Tx α} (h : Commutes f act) (h' : Commutes f other) :
    Commutes f (if c then act else other) := by
  split
  · exact h
  · exact h'

/-- To catch a failure commutes with a change if act and handler do. -/
theorem tryCatch {handle : Failure → Tx α} (h : Commutes f act)
    (hhandle : ∀ failure, Commutes f (handle failure)) : Commutes f (tryCatch act handle) := by
  intro s
  rw [result_tryCatch, result_tryCatch, h s]
  rcases result act s with ⟨failure | a, s'⟩
  · exact hhandle _ s'
  · rfl

end Commutes
end Store

-- ============================================================================
-- What is around the store
-- ============================================================================

namespace Session

/-- Alterations of what is around the store: of the engine, of whether the audit trail takes
entries, and of how many of them were asked for. -/
class Around (f : Session → Session) : Prop where
  now : ∀ s, (f s).now = s.now
  working : ∀ s, (f s).working = s.working
  seeing : ∀ s working, f { s with working } = { f s with working }
  keeping : ∀ s committed, f { s with committed } = { f s with committed }
  ids : ∀ s {kind}, kind ≠ .audit → (f s).ids kind = s.ids kind
  handing : ∀ s {kind}, kind ≠ .audit → f (s.handing kind) = (f s).handing kind

/-- The session with another state of the engine, which may take entries of the audit trail or
not. -/
def amid (engine : Engine → Engine) (refusesAudit : Bool) (s : Session) : Session :=
  { s with engine := engine s.engine, refusesAudit }

/-- The session with another number of entries that were asked for. -/
def numbering (n : Nat) (s : Session) : Session :=
  { s with ids := fun kind => if kind = .audit then n else s.ids kind }

instance (engine : Engine → Engine) (refuses : Bool) : Around (amid engine refuses) where
  now _ := rfl
  working _ := rfl
  seeing _ _ := rfl
  keeping _ _ := rfl
  ids _ _ _ := rfl
  handing _ _ _ := rfl

instance (n : Nat) : Around (numbering n) where
  now _ := rfl
  working _ := rfl
  seeing _ _ := rfl
  keeping _ _ := rfl
  ids _ _ h := if_neg h
  handing s kind h := by
    refine congrArg (fun ids => ({ s with ids } : Session)) (funext fun other => ?_)
    show (if other = .audit then n else if other = kind then s.ids kind + 1 else s.ids other) =
      if other = kind then (if kind = .audit then n else s.ids kind) + 1
      else if other = .audit then n else s.ids other
    by_cases hother : other = kind
    · rw [if_pos hother, if_pos hother, if_neg h, if_neg (hother ▸ h)]
    · rw [if_neg hother, if_neg hother]

end Session

namespace Store.Commutes

open Store Session

variable {α β ρ : Type} [Record ρ] {f : Session → Session} {act : Tx α}

/-- What an alteration leaves alone before the act, it leaves alone afterwards. -/
theorem fixed (h : Commutes f act) {s : Session} (hs : f s = s) :
    f (result act s).2 = (result act s).2 := by
  have hact := h s
  rw [hs] at hact
  exact (congrArg Prod.snd hact).symm

/-- What does not heed whether the trail takes entries does not change that. -/
theorem refusesAudit_eq (h : ∀ refuses, Commutes (amid id refuses) act) (s : Session) :
    (result act s).2.refusesAudit = s.refusesAudit :=
  (congrArg Session.refusesAudit ((h s.refusesAudit).fixed (s := s) rfl)).symm

/-- What does not heed how many entries were asked for asks for none. -/
theorem ids_audit_eq (h : ∀ n, Commutes (numbering n) act) (s : Session) :
    (result act s).2.ids .audit = s.ids .audit := by
  have hs : numbering (s.ids .audit) s = s := by
    refine congrArg (fun ids => ({ s with ids } : Session)) (funext fun kind => ?_)
    split
    case isTrue hkind => rw [hkind]
    case isFalse => rfl
  have hfixed := congrArg (fun s' => s'.ids .audit) ((h _).fixed hs)
  simpa [numbering] using hfixed.symm

/-- A look at what an alteration leaves alone. -/
theorem of_looks {look : Session → α} (h : ∀ s, result act s = (.ok (look s), s))
    (hlook : ∀ s, look (f s) = look s) : Commutes f act := by
  intro s
  rw [h, h, hlook]

variable [Around f]

theorem find? (id org : String) : Commutes f (Store.find? id org : Tx (Option ρ)) :=
  of_looks (fun _ => rfl) fun s => by rw [Around.working s]

theorem select (p : ρ → Bool) : Commutes f (Store.select p) :=
  of_looks (fun _ => rfl) fun s => by rw [Around.working s]

theorem now : Commutes f Store.now := of_looks (fun _ => rfl) Around.now

theorem bareNow : Commutes f Store.bareNow := of_looks result_bareNow fun s => by rw [Around.now s]

/-- An id is handed out alike, unless it is one for the trail. -/
theorem freshId {kind : RecordKind} (h : kind ≠ .audit) : Commutes f (Store.freshId kind) := by
  have hfresh : ∀ s, result (Store.freshId kind) s =
      (.ok (kind.word ++ "-" ++ toString (s.ids kind + 1)), s.handing kind) := fun _ => rfl
  intro s
  rw [hfresh, hfresh, Around.ids s h, Around.handing (f := f) s h]

theorem identify {kind : RecordKind} (h : kind ≠ .audit) (given : Json) :
    Commutes f (Store.identify kind given) := by
  rw [Store.identify]
  exact .ite (.map _ (.freshId h)) (.pure given)

theorem change (p : ρ → Bool) (g : ρ → ρ) : Commutes f (Store.change p g) := by
  intro s
  rw [result_change, result_change, Around.working s]
  exact congrArg (Prod.mk _) (Around.seeing (f := f) s _).symm

/-- A record is added alike, since a change around the store touches no record that it may clash
with. -/
theorem add (r : ρ) : Commutes f (Store.add r) := by
  intro s
  rw [result_add, result_add, Around.working s]
  split
  · rfl
  · exact congrArg (Prod.mk _) (Around.seeing (f := f) s _).symm

/-- To commit commutes with a change around the store. -/
theorem commit : Commutes f Store.commit := by
  have hcommit : ∀ s, result Store.commit s =
    (.ok (), { s with committed := s.working }) := fun _ => rfl
  intro s
  rw [hcommit, hcommit, Around.keeping (f := f) s s.working]
  dsimp only
  rw [Around.working s]

-- ============================================================================
-- The store
-- ============================================================================

theorem writeTask (w : Task.Write) (id org : String) :
    Commutes f (Store.writeTask w id org) := by
  refine .bind .bareNow fun moment => .bind (.find? id org) fun found => ?_
  cases found with
  | none => exact .pure _
  | some t => exact .ite (.bind (.change _ _) fun _ => .find? id org) (.pure _)

/-- To update a task commutes with a change around the store. -/
theorem updateTask (id org : String) (given : Fields) :
    Commutes f (Store.updateTask id org given) := by
  refine .bind (.find? id org) fun found => ?_
  cases found with
  | none => exact .pure _
  | some t =>
    exact .bind (.lift _) fun _ => .bind .now fun _ => .bind (.change _ _) fun _ => .pure _

/-- To update a contact commutes with a change around the store. -/
theorem updateContact (id org : String) (payload : Fields) :
    Commutes f (Store.updateContact id org payload) := by
  refine .bind (.find? id org) fun found => ?_
  cases found with
  | none => exact .pure _
  | some c =>
    exact .bind (.lift _) fun _ => .bind (.liftColumn _) fun _ => .bind .now fun _ =>
      .bind (.change _ _) fun _ => .pure _

theorem tellAssigned (org user : Json) (task title : String) (assignedBy : Option String) :
    Commutes f (Store.tellAssigned org user task title assignedBy) := by
  unfold Store.tellAssigned
  extract_lets own
  refine .ite (.map _ ?_) (.pure _)
  exact .bind (.freshId (by decide)) fun _ => .bind .bareNow fun _ => .bind (.liftColumn _) fun _ =>
    .bind (.add _) fun _ => .pure _

theorem createDefinition (org : Json) (payload : Fields) :
    Commutes f (Store.createDefinition org payload) :=
  .bind (.identify (by decide) _) fun _ => .bind .bareNow fun _ => .bind (.liftColumn _) fun _ =>
    .bind (.add _) fun _ => .pure _

theorem createExecution (org : Json) (d : ExecutionDraft) :
    Commutes f (Store.createExecution org d) :=
  .bind (.identify (by decide) _) fun _ => .bind .bareNow fun _ => .bind (.liftColumn _) fun _ =>
    .bind (.add _) fun _ => .pure _

theorem senderList? (org : Json) : Commutes f (Store.senderList? org) := by
  refine .bind (.lift _) fun _ => .bind (.liftColumn _) fun found => ?_
  cases found with
  | none => exact .pure _
  | some org => exact .bind (.select _) fun _ => .pure _

theorem sendersOf (org : Json) : Commutes f (Store.sendersOf org) := by
  refine .bind (.senderList? org) fun found => ?_
  cases found with
  | none => exact .pure _
  | some kept => exact .pure _

/-- To submit senders commutes with a change around the store. -/
theorem setSenders (org : String) (submitted : Json) :
    Commutes f (Store.setSenders org submitted) := by
  unfold Store.setSenders
  split
  · exact .throw _
  · refine .bind .bareNow fun _ => .bind (.senderList? _) fun kept => ?_
    cases kept with
    | none => exact .bind (.add _) fun _ => .pure _
    | some kept =>
      dsimp only
      split
      · exact .pure _
      · exact .bind (.change _ _) fun _ => .pure _

end Store.Commutes
end Casework
