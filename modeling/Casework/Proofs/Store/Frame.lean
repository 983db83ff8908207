/-
  Casework.Proofs.Store.Frame

  How work in a session moves the records on. An act moves by some progress if what the session sees
  afterwards is related so to what it saw before, nothing was committed, and the engine heard of
  nothing; then a transaction that carries the act out makes this progress too, whether it fails or
  not.
-/
import Casework.Audit.Store
import Casework.Notice.Sending
import Casework.Proofs.Result

namespace Casework.Store

open Result

variable {α β γ ρ : Type}

/-- What an act gives in a session, and the session afterwards. -/
def result (act : Tx α) (s : Session) : Except Failure α × Session := act.run.run s

-- ============================================================================
-- Results
-- ============================================================================

theorem result_pure (a : α) (s : Session) : result (pure a) s = (.ok a, s) := rfl

theorem result_lift (x : Except Failure α) (s : Session) : result (lift x) s = (x, s) := rfl

/-- After the first act the next one goes on from the session that it leaves, unless it has
failed. -/
theorem result_bind (act : Tx α) (next : α → Tx β) (s : Session) :
    result (act >>= next) s =
      match result act s with
      | (.ok a, s') => result (next a) s'
      | (.error f, s') => (.error f, s') := by
  rw [result, result, ExceptT.run_bind, StateT.run_bind]
  rcases act.run.run s with ⟨r, s'⟩
  cases r <;> rfl

theorem result_bind_of_ok {act : Tx α} {next : α → Tx β} {s s' : Session} {a : α}
    (h : result act s = (.ok a, s')) : result (act >>= next) s = result (next a) s' := by
  rw [result_bind, h]

theorem result_map (f : α → β) (act : Tx α) (s : Session) :
    result (f <$> act) s = ((result act s).1.map f, (result act s).2) := by
  rw [← bind_pure_comp, result_bind]
  rcases result act s with ⟨r, s'⟩
  cases r <;> rfl

/-- Who catches a failure goes on from the session that it leaves. -/
theorem result_tryCatch (act : Tx α) (handle : Failure → Tx α) (s : Session) :
    result (tryCatch act handle) s =
      match result act s with
      | (.ok a, s') => (.ok a, s')
      | (.error f, s') => result (handle f) s' := by
  show (ExceptT.tryCatch act handle).run.run s = _
  rw [ExceptT.tryCatch, ExceptT.run_mk, StateT.run_bind]
  rcases h : result act s with ⟨r, s'⟩
  have hrun : StateT.run act s = (r, s') := h
  rw [hrun]
  cases r <;> rfl

theorem result_bareNow (s : Session) : result bareNow s = (.ok s.now.bare, s) := rfl

/-- A change rewrites the records that it is about, and always succeeds. -/
theorem result_change [Record ρ] (p : ρ → Bool) (f : ρ → ρ) (s : Session) :
    result (change p f) s = (.ok (), { s with
      working := Record.replace ((Record.all s.working).map fun r => if p r then f r else r)
        s.working }) := rfl

/-- A record is added behind all others, unless it clashes with one of them. -/
theorem result_add [Record ρ] (r : ρ) (s : Session) :
    result (add r) s =
      if (Record.all s.working).any (Record.clash r) then (.error (.store .constraint), s)
      else
        (.ok (), { s with working := Record.replace (Record.all s.working ++ [r]) s.working }) := by
  rw [add, result_bind]
  show result (if _ then _ else _) s = _
  split <;> rfl

/-- A transaction commits what an act has done, or goes back to what was committed. -/
theorem transact_eq (act : Tx α) (s : Session) :
    transact act s =
      match result act s with
      | (.ok a, s') => (.ok a, { s' with committed := s'.working })
      | (.error f, s') => (.error f, { s' with working := s'.committed }) := rfl

theorem fst_transact (act : Tx α) (s : Session) : (transact act s).1 = (result act s).1 := by
  rw [transact_eq]
  rcases result act s with ⟨f | a, s'⟩ <;> rfl

theorem transact_of_ok {act : Tx α} {s s' : Session} {a : α} (h : result act s = (.ok a, s')) :
    transact act s = (.ok a, { s' with committed := s'.working }) := by rw [transact_eq, h]

theorem transact_of_error {act : Tx α} {s s' : Session} {f : Failure}
    (h : result act s = (.error f, s')) :
    transact act s = (.error f, { s' with working := s'.committed }) := by rw [transact_eq, h]

/-- Two acts succeed one after the other if the first succeeds, and the second from there. -/
theorem result_bind_eq_ok_iff {act : Tx α} {next : α → Tx β} {s s'' : Session} {b : β} :
    result (act >>= next) s = (.ok b, s'') ↔
      ∃ a s', result act s = (.ok a, s') ∧ result (next a) s' = (.ok b, s'') := by
  rw [result_bind]
  rcases result act s with ⟨r, s'⟩
  cases r with
  | ok a =>
    constructor
    · exact fun h => ⟨a, s', rfl, h⟩
    · rintro ⟨_, _, hact, h⟩
      cases hact
      exact h
  | error f =>
    constructor
    · intro h
      cases h
    · rintro ⟨_, _, hact, -⟩
      cases hact

theorem result_lift_eq_ok_iff {x : Except Failure α} {s s' : Session} {a : α} :
    result (lift x) s = (.ok a, s') ↔ x = .ok a ∧ s' = s := by
  rw [result_lift, Prod.mk.injEq]
  exact and_congr_right fun _ => eq_comm

theorem result_liftFault_eq_ok_iff {x : Except Fault α} {s s' : Session} {a : α} :
    result (liftFault x) s = (.ok a, s') ↔ x = .ok a ∧ s' = s := by
  refine result_lift_eq_ok_iff.trans (and_congr_left fun _ => ?_)
  cases x <;> simp [Failure.ofFault]

theorem result_liftColumn_eq_ok_iff {x : Except StoreFault α} {s s' : Session} {a : α} :
    result (liftColumn x) s = (.ok a, s') ↔ x = .ok a ∧ s' = s := by
  refine result_lift_eq_ok_iff.trans (and_congr_left fun _ => ?_)
  cases x <;> simp [Failure.ofStore]

/-- What is caught by something that cannot fail cannot fail. -/
theorem exists_result_tryCatch {act : Tx α} {handle : Failure → Tx α}
    (h : ∀ f s, ∃ a, (result (handle f) s).1 = .ok a) (s : Session) :
    ∃ a, (result (tryCatch act handle) s).1 = .ok a := by
  rw [result_tryCatch]
  rcases result act s with ⟨r, s'⟩
  cases r with
  | ok a => exact ⟨a, rfl⟩
  | error f => exact h f s'

theorem exists_transact_eq_ok {act : Tx α} {s : Session} (h : ∃ a, (result act s).1 = .ok a) :
    ∃ a, (transact act s).1 = .ok a := by
  obtain ⟨a, ha⟩ := h
  rw [transact_eq]
  rcases hresult : result act s with ⟨r, s'⟩
  rw [hresult] at ha
  cases ha
  exact ⟨a, rfl⟩

-- ============================================================================
-- Progress
-- ============================================================================

/-- A way in which records can move on, in several steps or none. -/
structure Progress where
  rel : Records → Records → Prop
  refl : ∀ r, rel r r
  trans : ∀ {a b c}, rel a b → rel b c → rel a c

/-- A view of the records stays as it is. -/
def Progress.keeping (view : Records → γ) : Progress where
  rel r r' := view r' = view r
  refl _ := rfl
  trans h h' := h'.trans h

/-- Records move on in any way. -/
def anyhow : Progress where
  rel _ _ := True
  refl _ := trivial
  trans _ _ := trivial

/-- What a session sees has moved on, and nothing else has. -/
structure Progress.Step (R : Progress) (s s' : Session) : Prop where
  working : R.rel s.working s'.working
  committed : s'.committed = s.committed
  engine : s'.engine = s.engine

theorem Progress.Step.refl (R : Progress) (s : Session) : R.Step s s := ⟨R.refl _, rfl, rfl⟩

theorem Progress.Step.trans {R : Progress} {s s' s'' : Session} (h : R.Step s s')
    (h' : R.Step s' s'') : R.Step s s'' :=
  ⟨R.trans h.working h'.working, h'.committed.trans h.committed, h'.engine.trans h.engine⟩

/-- An act moves on what sessions see, and does nothing else. -/
def Moves (R : Progress) (act : Tx α) : Prop := ∀ s, R.Step s (result act s).2

namespace Moves

variable {R : Progress} {act : Tx α}

/-- An act that changes at most which ids are new. -/
theorem of_records_eq
    (h : ∀ s, (result act s).2.working = s.working ∧ (result act s).2.committed = s.committed ∧
      (result act s).2.engine = s.engine) : Moves R act := by
  intro s
  obtain ⟨hworking, hcommitted, hengine⟩ := h s
  exact ⟨by rw [hworking]; exact R.refl _, hcommitted, hengine⟩

/-- What moves by a progress moves by every one that it is part of. -/
theorem mono {R' : Progress} (h : Moves R act) (hrel : ∀ {r r'}, R.rel r r' → R'.rel r r') :
    Moves R' act :=
  fun s => ⟨hrel (h s).working, (h s).committed, (h s).engine⟩

theorem pure (a : α) : Moves R (pure a : Tx α) := of_records_eq fun _ => ⟨rfl, rfl, rfl⟩

theorem throw (f : Failure) : Moves R (throw f : Tx α) := of_records_eq fun _ => ⟨rfl, rfl, rfl⟩

theorem throw_bind (f : Failure) (next : β → Tx α) :
    Moves R ((MonadExcept.throw f : Tx β) >>= next) :=
  of_records_eq fun _ => ⟨rfl, rfl, rfl⟩

theorem lift (x : Except Failure α) : Moves R (Store.lift x) :=
  of_records_eq fun _ => ⟨rfl, rfl, rfl⟩

theorem liftFault (x : Except Fault α) : Moves R (Store.liftFault x) := lift _

theorem liftColumn (x : Except StoreFault α) : Moves R (Store.liftColumn x) := lift _

theorem select [Record ρ] (p : ρ → Bool) : Moves R (select p) :=
  of_records_eq fun _ => ⟨rfl, rfl, rfl⟩

theorem now : Moves R now := of_records_eq fun _ => ⟨rfl, rfl, rfl⟩

theorem bareNow : Moves R bareNow := of_records_eq fun _ => ⟨rfl, rfl, rfl⟩

theorem freshId (kind : RecordKind) : Moves R (freshId kind) :=
  of_records_eq fun _ => ⟨rfl, rfl, rfl⟩

/-- One act after another moves the store as both do. -/
theorem bind {next : α → Tx β} (h : Moves R act) (hnext : ∀ a, Moves R (next a)) :
    Moves R (act >>= next) := by
  intro s
  have hact := h s
  rw [result_bind]
  rcases hresult : result act s with ⟨r, s'⟩
  rw [hresult] at hact
  cases r with
  | error f => exact hact
  | ok a => exact hact.trans (hnext a s')

theorem liftColumn_bind {x : Except StoreFault α} {next : α → Tx β}
    (h : ∀ a, x = .ok a → Moves R (next a)) : Moves R (Store.liftColumn x >>= next) := by
  cases x with
  | ok a => exact h a rfl
  | error f => exact of_records_eq fun _ => ⟨rfl, rfl, rfl⟩

theorem ite {c : Prop} [Decidable c] {other : Tx α} (h : Moves R act) (h' : Moves R other) :
    Moves R (if c then act else other) := by
  split
  · exact h
  · exact h'

theorem map (f : α → β) (h : Moves R act) : Moves R (f <$> act) := by
  intro s
  rw [result_map]
  exact h s

theorem forM {act : β → Tx PUnit} (h : ∀ b, Moves R (act b)) (items : List β) :
    Moves R (items.forM act) := by
  induction items with
  | nil => exact .pure _
  | cons item rest ih => exact .bind (h item) fun _ => ih

theorem identify (kind : RecordKind) (given : Json) : Moves R (identify kind given) := by
  rw [Store.identify]
  exact .ite (.map _ (.freshId _)) (.pure _)

/-- To catch a failure moves the store as act and handler do. -/
theorem tryCatch {handle : Failure → Tx α} (h : Moves R act)
    (hhandle : ∀ f, Moves R (handle f)) : Moves R (tryCatch act handle) := by
  intro s
  have hact := h s
  rw [result_tryCatch]
  rcases hresult : result act s with ⟨r, s'⟩
  rw [hresult] at hact
  cases r with
  | ok a => exact hact
  | error f => exact hact.trans (hhandle f s')

/-- A new record that clashes with none is progress, or else nothing changes. -/
theorem add [Record ρ] (r : ρ)
    (h : ∀ records : Records, (Record.all records).any (Record.clash r) = false →
      R.rel records (Record.replace (Record.all records ++ [r]) records)) :
    Moves R (add r) := by
  intro s
  rw [result_add]
  split
  case isTrue => exact .refl R s
  case isFalse hclash => exact ⟨h _ (Bool.not_eq_true _ ▸ hclash), rfl, rfl⟩

/-- A change moves the store as far as it rewrites records. -/
theorem change [Record ρ] {p : ρ → Bool} {f : ρ → ρ}
    (h : ∀ records : Records, R.rel records (Record.replace
      ((Record.all records).map fun r => if p r then f r else r) records)) :
    Moves R (change p f) :=
  fun s => ⟨h s.working, rfl, rfl⟩

/-- The rest of the work knows that a record that was found is the one that was looked for. -/
theorem find?_bind [Record ρ] {id org : String} {next : Option ρ → Tx β}
    (hnone : Moves R (next none))
    (hsome : ∀ r : ρ, Record.isOf id org r → Moves R (next (some r))) :
    Moves R (find? id org >>= next) := by
  intro s
  rw [result_bind, show result (find? id org) s =
    (.ok ((Record.all s.working : List ρ).find? (Record.isOf id org)), s) from rfl]
  cases hfound : (Record.all s.working : List ρ).find? (Record.isOf id org) with
  | none => exact hnone s
  | some r => exact hsome r (List.find?_some hfound) s

end Moves

/-- A new record that was kept comes behind those that are there, and clashes with none of them. One
that was given no id has one that is handed out. -/
theorem added_of_result [Record ρ] {kind : RecordKind} {given : Json}
    {make : Json → Moment → Except StoreFault ρ} {answer : Json → ρ → α} {s s' : Session} {a : α}
    (h : result (do
      let id ← identify kind given
      let r ← liftColumn (make id (← bareNow))
      add r
      pure (answer id r)) s = (.ok a, s')) :
    ∃ id moment r, (given = .null → ∃ n : Nat, id = .text (kind.word ++ "-" ++ toString n)) ∧
      make id moment = .ok r ∧ a = answer id r ∧
      (Record.all s.working).any (Record.clash r) = false ∧
      s'.working = Record.replace (Record.all s.working ++ [r]) s.working := by
  obtain ⟨id, identified, hidentify, hcreate⟩ := result_bind_eq_ok_iff.1 h
  -- To hand out an id leaves the records as they are.
  have hworking : identified.working = s.working := by
    have hmoves := (Moves.identify kind given : Moves (.keeping fun records => records) _) s
    rw [hidentify] at hmoves
    exact hmoves.working
  obtain ⟨moment, _, hmoment, hkeep⟩ := result_bind_eq_ok_iff.1 hcreate
  cases hmoment
  obtain ⟨r, _, hcolumns, hput⟩ := result_bind_eq_ok_iff.1 hkeep
  obtain ⟨hmake, rfl⟩ := result_liftColumn_eq_ok_iff.1 hcolumns
  obtain ⟨_, _, hadd, hdone⟩ := result_bind_eq_ok_iff.1 hput
  cases hdone
  rw [result_add, hworking] at hadd
  -- It clashes with another record.
  split at hadd
  case isTrue => cases hadd
  -- It is new.
  case isFalse hclash =>
    cases hadd
    refine ⟨id, _, r, ?_, hmake, rfl, Bool.not_eq_true _ ▸ hclash, rfl⟩
    rintro rfl
    cases hidentify
    exact ⟨_, rfl⟩

-- ============================================================================
-- Transactions
-- ============================================================================

section Transactions

variable {R : Progress} {act : Tx α} {s : Session}

/-- A transaction moves the records on as its act does, and sees what is committed afterwards. -/
theorem transact_of_step (hs : s.working = s.committed) (h : R.Step s (result act s).2) :
    (transact act s).2.working = (transact act s).2.committed ∧
      R.rel s.working (transact act s).2.working ∧ (transact act s).2.engine = s.engine := by
  rw [transact_eq]
  rcases hresult : result act s with ⟨r, s'⟩
  rw [hresult] at h
  cases r with
  | ok a => exact ⟨rfl, h.working, h.engine⟩
  | error f =>
    refine ⟨rfl, ?_, h.engine⟩
    show R.rel s.working s'.committed
    rw [h.committed, hs]
    exact R.refl _

/-- A transaction moves both views alike, and leaves the engine. -/
theorem Moves.transact (h : Moves R act) (hs : s.working = s.committed) :
    (transact act s).2.working = (transact act s).2.committed ∧
      R.rel s.working (transact act s).2.working ∧ (transact act s).2.engine = s.engine :=
  transact_of_step hs (h s)

/-- Taking back the changes since the last commit takes nothing back where there are none. -/
theorem result_tryCatch_rollback {act : Tx Unit} (h : Moves R act) (hs : s.working = s.committed) :
    R.Step s (result (tryCatch act fun _ => rollback) s).2 := by
  have hact := h s
  rw [result_tryCatch]
  rcases hresult : result act s with ⟨r, s'⟩
  rw [hresult] at hact
  cases r with
  | ok a => exact hact
  | error f =>
    refine ⟨?_, hact.committed, hact.engine⟩
    show R.rel s.working s'.committed
    rw [hact.committed, hs]
    exact R.refl _

end Transactions

-- ============================================================================
-- Notices and entries
-- ============================================================================

section Told

variable {R : Progress}

/-- A column that must not be empty has a value. -/
theorem required_eq_ok {column : Option α} {a : α} (h : Column.required column = .ok a) :
    column = some a := by
  cases column with
  | none => cases h
  | some b =>
    cases h
    rfl

/-- A notice that is kept has the id and the organization that it was given. -/
theorem keys_of_notice {d : NoticeDraft} {id : String} {org : Json} {moment : Moment} {n : Notice}
    (h : d.notice id org moment = .ok n) : n.id = id ∧ Column.text org = .ok (some n.org) := by
  obtain ⟨org?, horg, h⟩ := bind_eq_ok_iff.1 h
  obtain ⟨_, -, h⟩ := bind_eq_ok_iff.1 h
  obtain ⟨_, -, h⟩ := bind_eq_ok_iff.1 h
  obtain ⟨_, hrequired, h⟩ := bind_eq_ok_iff.1 h
  obtain ⟨_, -, h⟩ := bind_eq_ok_iff.1 h
  cases h
  obtain rfl := required_eq_ok hrequired
  exact ⟨rfl, horg⟩

section Notices

variable {org : Json}
  (hnotices : ∀ records (n : Notice), Column.text org = .ok (some n.org) →
    R.rel records { records with notices := records.notices ++ [n] })

include hnotices

theorem moves_createNotice (d : NoticeDraft) : Moves R (createNotice org d) := by
  refine .bind (.freshId _) fun id => .bind .bareNow fun moment =>
    .liftColumn_bind fun notice hkept => ?_
  exact .bind (.add notice fun _ _ => hnotices _ _ (keys_of_notice hkept).2) fun _ => .pure _

theorem moves_tellAssigned (user : Json) (task title : String) (assignedBy : Option String) :
    Moves R (tellAssigned org user task title assignedBy) := by
  unfold tellAssigned
  extract_lets own
  split
  · exact .map _ (moves_createNotice hnotices _)
  · exact .pure _

theorem moves_tellRecipients (recipients title message execution : Json) :
    Moves R (tellRecipients org recipients title message execution) := by
  have hmembers : Moves R (membersOf org) :=
    .bind (.liftColumn _) fun _ => .bind (.map _ (.select _)) fun _ => .liftFault _
  refine .bind hmembers fun _ => .bind (.liftFault _) fun _ => .bind (.liftFault _) fun _ =>
    .bind (.forM (fun _ => ?_) _) fun _ => .pure _
  exact .bind (.liftFault _) fun _ => .bind (.liftFault _) fun _ =>
    .map _ (moves_createNotice hnotices _)

end Notices

theorem moves_sendersOf (org : Json) : Moves R (sendersOf org) := by
  refine .bind (.bind (.lift _) fun _ => .bind (.liftColumn _) fun org => ?_) fun kept => ?_
  · split
    · exact .pure _
    · exact .bind (.select _) fun _ => .pure _
  · cases kept with
    | none => exact .pure _
    | some kept => exact .pure _

theorem moves_addAudit (org : String)
    (haudit : ∀ records (e : AuditEntry), e.org = org →
      R.rel records { records with audit := records.audit ++ [e] })
    (user : Option String) (entityKind entity action : String) (details : Json) :
    Moves R (addAudit org user entityKind entity action details) := by
  refine .bind (.freshId _) fun _ => .bind .bareNow fun _ =>
    .bind (.of_records_eq fun _ => ⟨rfl, rfl, rfl⟩) ?_
  intro s
  split
  · exact .throw _
  · exact .add _ fun _ _ => haudit _ _ rfl

end Told

end Casework.Store
