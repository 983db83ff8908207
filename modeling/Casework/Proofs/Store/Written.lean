/-
  Casework.Proofs.Store.Written

  What is written to the records, one write after the other. A write is made for one organization:
  it puts a new record of the organization, or changes the one that has an id there. What becomes of
  a task or an execution by a write is said here once; members and policies are not written to.
  Whatever every single write keeps is kept by all that is done in sessions, whether its changes are
  kept or dropped.
-/
import Casework.Proofs.Store.View
import Casework.Task.Lifecycle
import Mathlib.Logic.Relation

namespace Casework

open Store

-- ============================================================================
-- Rows
-- ============================================================================

namespace Record

variable {ρ : Type} [Record ρ]

/-- A record is the one of an id and an organization if it has both. -/
theorem isOf_iff {id org : String} {r : ρ} :
    Record.isOf id org r ↔ Record.id r = id ∧ Record.org r = org := by
  rw [Record.isOf, Bool.and_eq_true, beq_iff_eq, beq_iff_eq]

/-- A record is the only one among others that has its id. -/
def Only (rows : List ρ) (r : ρ) : Prop :=
  rows.filter (fun x => Record.id x == Record.id r) = [r]

namespace Only

variable {rows : List ρ} {r : ρ}

/-- The only row with its id is one of the rows. -/
theorem mem (h : Only rows r) : r ∈ rows := by
  have hmem : r ∈ rows.filter fun x => Record.id x == Record.id r := by
    rw [h]
    exact List.mem_singleton_self r
  exact (List.mem_filter.1 hmem).1

/-- Another row with that id is the same row. -/
theorem eq_of_mem (h : Only rows r) {x : ρ} (hx : x ∈ rows) (hid : Record.id x = Record.id r) :
    x = r := by
  have hmem : x ∈ rows.filter fun x => Record.id x == Record.id r :=
    List.mem_filter.2 ⟨hx, beq_iff_eq.2 hid⟩
  rw [h] at hmem
  exact List.mem_singleton.1 hmem

/-- It is found by its id and its organization. -/
theorem find? (h : Only rows r) :
    rows.find? (Record.isOf (Record.id r) (Record.org r)) = some r := by
  cases hfound : rows.find? (Record.isOf (Record.id r) (Record.org r)) with
  | none => exact absurd (isOf_iff.2 ⟨rfl, rfl⟩) (List.find?_eq_none.1 hfound r h.mem)
  | some x =>
    have hid := (isOf_iff.1 (List.find?_some hfound)).1
    rw [h.eq_of_mem (List.mem_of_find?_eq_some hfound) hid]

/-- A new record that no other one has the id of. -/
theorem append (h : ∀ x ∈ rows, Record.id x ≠ Record.id r) : Only (rows ++ [r]) r := by
  have hnone : rows.filter (fun x => Record.id x == Record.id r) = [] :=
    List.filter_eq_nil_iff.2 fun x hx => by simpa using h x hx
  rw [Only, List.filter_append, hnone]
  simp

end Only

/-- Records with the same id clash. -/
def Keyed (ρ : Type) [Record ρ] : Prop :=
  ∀ a b : ρ, Record.id a = Record.id b → Record.clash a b = true

/-- A record that clashes with none has an id that no other has. -/
theorem ne_of_any_clash (hkeyed : Keyed ρ) {rows : List ρ} {r : ρ}
    (hnew : rows.any (Record.clash r) = false) : ∀ x ∈ rows, Record.id x ≠ Record.id r :=
  fun x hx hid => absurd (hkeyed r x hid.symm) (List.any_eq_false.1 hnew x hx)

end Record

/-- One write to the records of a kind for an organization: a new record that clashes with none, or
another form of the one that has an id, which may become so. -/
inductive Rows.Written {ρ : Type} [Record ρ] (org : String) (becomes : ρ → ρ → Prop)
    (rows : List ρ) : List ρ → Prop where
  | added {r : ρ} (horg : Record.org r = org) (hnew : rows.any (Record.clash r) = false) :
    Written org becomes rows (rows ++ [r])
  | changed {id : String} {f : ρ → ρ} (hkeys : ∀ r, Record.isOf id org r → Record.isOf id org (f r))
    (hbecomes : ∀ r, rows.find? (Record.isOf id org) = some r → becomes r (f r)) :
    Written org becomes rows (rows.map fun r => if Record.isOf id org r then f r else r)

namespace Rows.Written

variable {ρ : Type} [Record ρ] {org : String} {becomes : ρ → ρ → Prop} {rows rows' : List ρ}

/-- The records of other organizations stay as they are. -/
theorem filter_eq (h : Written org becomes rows rows') {other : String} (hother : other ≠ org) :
    rows'.filter (fun r => Record.org r == other) = rows.filter fun r => Record.org r == other := by
  cases h with
  | added horg _ => simp [List.filter_append, horg, hother.symm]
  | @changed id f hkeys hbecomes =>
    clear hbecomes
    induction rows with
    | nil => rfl
    | cons r rest ih =>
      rw [List.map_cons, List.filter_cons, List.filter_cons, ih]
      by_cases hof : Record.isOf id org r
      · have hr := (Record.isOf_iff.1 hof).2
        have hfr := (Record.isOf_iff.1 (hkeys r hof)).2
        simp [hof, hr, hfr, hother.symm]
      · simp [hof]

/-- The only record with an id is the only one afterwards, and has become so if it has changed. -/
theorem only (h : Written org becomes rows rows') (hkeyed : Record.Keyed ρ) {r : ρ}
    (hr : Record.Only rows r) :
    ∃ r', Record.Only rows' r' ∧ Record.id r' = Record.id r ∧ Record.org r' = Record.org r ∧
      (r' = r ∨ becomes r r') := by
  cases h with
  -- A row is added, whose id is another one.
  | @added new horg hnew =>
    have hother : Record.id new ≠ Record.id r :=
      fun hid => Record.ne_of_any_clash hkeyed hnew r hr.mem hid.symm
    refine ⟨r, ?_, rfl, rfl, .inl rfl⟩
    rw [Record.Only, List.filter_append, hr]
    simp [hother]
  -- Rows of one id and organization are changed; the row may be among them.
  | @changed id f hkeys hbecomes =>
    -- No row gets another id.
    have hid : ∀ x, Record.id (if Record.isOf id org x then f x else x) = Record.id x := by
      intro x
      split
      case isTrue hof =>
        exact (Record.isOf_iff.1 (hkeys x hof)).1.trans (Record.isOf_iff.1 hof).1.symm
      case isFalse => rfl
    refine ⟨if Record.isOf id org r then f r else r, ?_, hid r, ?_, ?_⟩
    · have hsame : (fun x : ρ => Record.id x == Record.id r) ∘
          (fun x => if Record.isOf id org x then f x else x) =
            fun x => Record.id x == Record.id r := by
        funext x
        rw [Function.comp_apply, hid]
      rw [Record.Only, hid, List.filter_map, hsame, hr]
      rfl
    · split
      case isTrue hof =>
        exact (Record.isOf_iff.1 (hkeys r hof)).2.trans (Record.isOf_iff.1 hof).2.symm
      case isFalse => rfl
    · split
      case isFalse => exact .inl rfl
      case isTrue hof =>
        obtain ⟨rfl, rfl⟩ := Record.isOf_iff.1 hof
        exact .inr (hbecomes r hr.find?)

end Rows.Written

-- ============================================================================
-- Records
-- ============================================================================

/-- What may become of a task that is written to. It stays the task of its step and its execution,
of its kind, and a new status, priority or title is one that tasks can have. -/
structure Task.Becomes (t t' : Task) : Prop where
  creator : t'.creator = t.creator
  execution : t'.execution = t.execution
  kind : t'.kind = t.kind
  status : t'.status = t.status ∨ t'.status ∈ Task.statuses
  priority : t'.priority = t.priority ∨ t'.priority ∈ Task.priorities
  title : t'.title = t.title ∨ Text.trim t'.title ≠ ""

namespace Task.Becomes

variable {t t' t'' : Task}

theorem refl (t : Task) : Becomes t t := ⟨rfl, rfl, rfl, .inl rfl, .inl rfl, .inl rfl⟩

/-- What a task has become may become more. -/
theorem trans (h : Becomes t t') (h' : Becomes t' t'') : Becomes t t'' where
  creator := h'.creator.trans h.creator
  execution := h'.execution.trans h.execution
  kind := h'.kind.trans h.kind
  status := by
    rcases h'.status with hsame | hnew
    · exact h.status.imp hsame.trans fun hmem => hsame ▸ hmem
    · exact .inr hnew
  priority := by
    rcases h'.priority with hsame | hnew
    · exact h.priority.imp hsame.trans fun hmem => hsame ▸ hmem
    · exact .inr hnew
  title := by
    rcases h'.title with hsame | hnew
    · exact h.title.imp hsame.trans fun hne => hsame ▸ hne
    · exact .inr hnew

end Task.Becomes

/-- One write for an organization. An execution keeps its program, and definitions, notices and
entries of the audit trail stay as they are once they are there. -/
inductive Records.Written (org : String) (records : Records) : Records → Prop where
  | tasks {rows : List Task} (h : Rows.Written org Task.Becomes records.tasks rows) :
    Written org records { records with tasks := rows }
  | executions {rows : List Execution}
    (h : Rows.Written org (fun e e' => e'.steps = e.steps) records.executions rows) :
    Written org records { records with executions := rows }
  | contacts {rows : List Contact} (h : Rows.Written org (fun _ _ => True) records.contacts rows) :
    Written org records { records with contacts := rows }
  | definitions {d : DefinitionRecord} (horg : d.org = org) :
    Written org records { records with definitions := records.definitions ++ [d] }
  | notices {n : Notice} (horg : n.org = org) :
    Written org records { records with notices := records.notices ++ [n] }
  | audit {e : AuditEntry} (horg : e.org = org) :
    Written org records { records with audit := records.audit ++ [e] }
  | senders {rows : List SenderList} (h : Rows.Written org (fun _ _ => True) records.senders rows) :
    Written org records { records with senders := rows }

namespace Records.Written

variable {org : String} {records records' : Records}

/-- What another organization sees of the store stays as it is. -/
theorem view_eq (h : records.Written org records') {other : String} (hother : other ≠ org) :
    records'.view other = records.view other := by
  have hnone : ∀ {ρ : Type} [Record ρ] (rows : List ρ) {r : ρ}, Record.org r = org →
      (rows ++ [r]).filter (fun x => Record.org x == other) =
        rows.filter fun x => Record.org x == other := by
    intro ρ _ rows r hr
    simp [List.filter_append, hr, hother.symm]
  cases h with
  | tasks h => exact congrArg (Records.mk · _ _ _ _ _ _ _ _) (h.filter_eq hother)
  | executions h => exact congrArg (Records.mk _ · _ _ _ _ _ _ _) (h.filter_eq hother)
  | contacts h => exact congrArg (Records.mk _ _ · _ _ _ _ _ _) (h.filter_eq hother)
  | definitions h => exact congrArg (Records.mk _ _ _ · _ _ _ _ _) (hnone _ h)
  | notices h => exact congrArg (Records.mk _ _ _ _ · _ _ _ _) (hnone _ h)
  | audit h => exact congrArg (Records.mk _ _ _ _ _ · _ _ _) (hnone _ h)
  | senders h => exact congrArg (Records.mk _ _ _ _ _ _ _ _ ·) (h.filter_eq hother)

/-- A task is still there, with its id and in its organization, as what may become of it. -/
theorem task (h : records.Written org records') {t : Task} (ht : Record.Only records.tasks t) :
    ∃ t', Record.Only records'.tasks t' ∧ t'.id = t.id ∧ t'.org = t.org ∧ t.Becomes t' := by
  cases h with
  | tasks h =>
    obtain ⟨t', hleft, hid, horg, hbecomes⟩ := h.only (fun _ _ => beq_iff_eq.2) ht
    refine ⟨t', hleft, hid, horg, ?_⟩
    rcases hbecomes with rfl | hbecomes
    · exact .refl _
    · exact hbecomes
  | _ => exact ⟨t, ht, rfl, rfl, .refl t⟩

/-- An execution is still there, with its id and in its organization, and keeps its program. -/
theorem execution (h : records.Written org records') {e : Execution}
    (he : Record.Only records.executions e) :
    ∃ e', Record.Only records'.executions e' ∧ e'.id = e.id ∧ e'.org = e.org ∧
      e'.steps = e.steps := by
  cases h with
  | executions h =>
    obtain ⟨e', hleft, hid, horg, hbecomes⟩ := h.only (fun _ _ => beq_iff_eq.2) he
    refine ⟨e', hleft, hid, horg, ?_⟩
    rcases hbecomes with rfl | hsteps
    · rfl
    · exact hsteps
  | _ => exact ⟨e, he, rfl, rfl, rfl⟩

/-- A definition that is found is found as it is. -/
theorem definition (h : records.Written org records') {p : DefinitionRecord → Bool}
    {d : DefinitionRecord} (hd : records.definitions.find? p = some d) :
    records'.definitions.find? p = some d := by
  cases h with
  | definitions _ => rw [List.find?_append, hd, Option.some_or]
  | _ => exact hd

end Records.Written

-- ============================================================================
-- Many writes
-- ============================================================================

/-- Records move on by writes for some organizations. -/
def writing (orgs : String → Prop) : Progress where
  rel := Relation.ReflTransGen fun records records' => ∃ org, orgs org ∧
    records.Written org records'
  refl _ := .refl
  trans := .trans

/-- A task is still there, as what may become of it, and an execution with its program. -/
def keepingRows : Progress where
  rel records records' :=
    (∀ t, Record.Only records.tasks t → ∃ t', Record.Only records'.tasks t' ∧ t'.id = t.id ∧
      t'.org = t.org ∧ t.Becomes t') ∧
    ∀ e, Record.Only records.executions e → ∃ e', Record.Only records'.executions e' ∧
      e'.id = e.id ∧ e'.org = e.org ∧ e'.steps = e.steps
  refl _ := ⟨fun t ht => ⟨t, ht, rfl, rfl, .refl t⟩, fun e he => ⟨e, he, rfl, rfl, rfl⟩⟩
  trans := by
    rintro a b c ⟨htask, hexecution⟩ ⟨htask', hexecution'⟩
    constructor
    · intro t ht
      obtain ⟨t', ht', hid, horg, hbecomes⟩ := htask t ht
      obtain ⟨t'', ht'', hid', horg', hbecomes'⟩ := htask' t' ht'
      exact ⟨t'', ht'', hid'.trans hid, horg'.trans horg, hbecomes.trans hbecomes'⟩
    · intro e he
      obtain ⟨e', he', hid, horg, hsteps⟩ := hexecution e he
      obtain ⟨e'', he'', hid', horg', hsteps'⟩ := hexecution' e' he'
      exact ⟨e'', he'', hid'.trans hid, horg'.trans horg, hsteps'.trans hsteps⟩

section Writing

variable {orgs : String → Prop} {records records' : Records}

/-- What is written to one of the organizations is a step of them. -/
theorem writing_of_written {org : String} (horg : orgs org) (h : records.Written org records') :
    (writing orgs).rel records records' :=
  .single ⟨org, horg, h⟩

/-- What every write keeps is kept by all of them. -/
theorem rel_of_writing {R : Progress}
    (hwritten : ∀ {a b : Records} {org : String}, orgs org → a.Written org b → R.rel a b)
    (h : (writing orgs).rel records records') : R.rel records records' := by
  induction h with
  | refl => exact R.refl _
  | tail _ hlast ih =>
    obtain ⟨org, horg, hlast⟩ := hlast
    exact R.trans ih (hwritten horg hlast)

/-- What an organization sees stays as it is as long as writes are made for others. -/
theorem view_of_writing {other : String} (hother : ¬ orgs other)
    (h : (writing orgs).rel records records') : records'.view other = records.view other :=
  rel_of_writing (R := .keeping (Records.view other))
    (fun horg hwritten => hwritten.view_eq fun hsame => hother (hsame ▸ horg)) h

theorem rows_of_writing (h : (writing orgs).rel records records') :
    keepingRows.rel records records' :=
  rel_of_writing (fun _ hwritten => ⟨fun _ => hwritten.task, fun _ => hwritten.execution⟩) h

/-- A definition that is stored is found as it was, whatever is written. -/
theorem definition_of_writing (h : (writing orgs).rel records records')
    {p : DefinitionRecord → Bool}
    {d : DefinitionRecord} (hd : records.definitions.find? p = some d) :
    records'.definitions.find? p = some d := by
  have hall : ∀ d, records.definitions.find? p = some d → records'.definitions.find? p = some d :=
    rel_of_writing (R := {
      rel := fun a b => ∀ d, a.definitions.find? p = some d → b.definitions.find? p = some d
      refl := fun _ _ hd => hd
      trans := fun h h' d hd => h' d (h d hd) }) (fun _ hwritten _ => hwritten.definition) h
  exact hall d hd

end Writing

-- ============================================================================
-- Sessions
-- ============================================================================

namespace Store

/-- What a session sees, and what is committed, has moved on from some records. -/
structure Progress.From (R : Progress) (base : Records) (s : Session) : Prop where
  working : R.rel base s.working
  committed : R.rel base s.committed

variable {α β : Type} {R : Progress} {act : Tx α}

/-- What an act leaves has moved on from what was there, whether it keeps its changes, drops them,
or leaves this open. -/
def Advances (R : Progress) (act : Tx α) : Prop :=
  ∀ base s, R.From base s → R.From base (result act s).2

theorem Moves.advances (h : Moves R act) : Advances R act := by
  intro base s hs
  have hstep := h s
  exact ⟨R.trans hs.working hstep.working, hstep.committed ▸ hs.committed⟩

namespace Advances

theorem pure (a : α) : Advances R (pure a : Tx α) := (Moves.pure a).advances

theorem throw (f : Failure) : Advances R (throw f : Tx α) := (Moves.throw f).advances

theorem lift (x : Except Failure α) : Advances R (Store.lift x) := (Moves.lift x).advances

theorem commit : Advances R commit := fun _ _ hs => ⟨hs.working, hs.working⟩

theorem rollback : Advances R rollback := fun _ _ hs => ⟨hs.committed, hs.committed⟩

theorem ask (call : Engine → Except String Unit × Engine) : Advances R (ask call) :=
  fun _ _ hs => ⟨hs.working, hs.committed⟩

/-- The rest of the work knows what the act can give. -/
theorem bind_knowing {next : α → Tx β} (h : Advances R act) (know : α → Prop)
    (hknow : ∀ s a s', result act s = (.ok a, s') → know a)
    (hnext : ∀ a, know a → Advances R (next a)) : Advances R (act >>= next) := by
  intro base s hs
  have hact := h base s hs
  rw [result_bind]
  rcases hresult : result act s with ⟨r, s'⟩
  rw [hresult] at hact
  cases r with
  | error f => exact hact
  | ok a => exact hnext a (hknow s a s' hresult) base s' hact

/-- One act after another advances the store if both do. -/
theorem bind {next : α → Tx β} (h : Advances R act) (hnext : ∀ a, Advances R (next a)) :
    Advances R (act >>= next) :=
  h.bind_knowing (fun _ => True) (fun _ _ _ _ => trivial) fun a _ => hnext a

theorem ite {c : Prop} [Decidable c] {other : Tx α} (h : Advances R act) (h' : Advances R other) :
    Advances R (if c then act else other) := by
  split
  · exact h
  · exact h'

theorem map (f : α → β) (h : Advances R act) : Advances R (f <$> act) := by
  intro base s hs
  rw [result_map]
  exact h base s hs

theorem holding (h : Advances R act) : Advances R (holding act) := by
  intro base s hs
  rw [snd_result_holding]
  exact h base s hs

/-- To catch a failure advances the store if act and handler do. -/
theorem tryCatch {handle : Failure → Tx α} (h : Advances R act)
    (hhandle : ∀ f, Advances R (handle f)) : Advances R (tryCatch act handle) := by
  intro base s hs
  have hact := h base s hs
  rw [result_tryCatch]
  rcases hresult : result act s with ⟨r, s'⟩
  rw [hresult] at hact
  cases r with
  | ok a => exact hact
  | error f => exact hhandle f base s' hact

/-- A transaction advances the store, in both views. -/
theorem transact (h : Advances R act) {base : Records} {s : Session} (hs : R.From base s) :
    R.From base (transact act s).2 := by
  have hact := h base s hs
  rw [transact_eq]
  rcases hresult : result act s with ⟨r, s'⟩
  rw [hresult] at hact
  cases r with
  | ok a => exact ⟨hact.working, hact.working⟩
  | error f => exact ⟨hact.committed, hact.committed⟩

end Advances
end Store
end Casework
