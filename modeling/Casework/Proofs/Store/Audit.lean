/-
  Casework.Proofs.Store.Audit

  What comes of asking for an entry of the audit trail. An id is handed out in any case. The entry
  is put, or all that is not yet committed is dropped; in the latter case, if it is because the
  trail takes no entries, those who hold on to what was read before fail.
-/
import Casework.Proofs.Store.Frame

namespace Casework

/-- The session after an id of a kind was handed out. -/
def Session.handing (kind : RecordKind) (s : Session) : Session :=
  { s with ids := fun k => if k = kind then s.ids kind + 1 else s.ids k }

/-- The id that is handed out to the next entry of the audit trail. -/
def Session.nextEntry (s : Session) : String :=
  RecordKind.audit.word ++ "-" ++ toString (s.ids .audit + 1)

/-- The entry of the audit trail that is made if one is asked for. -/
def Session.entry (s : Session) (org : String) (user : Option String)
    (entityKind entity action : String)
    (details : Json) : AuditEntry :=
  ⟨s.nextEntry, org, user, entityKind, entity, action, details, s.now.bare⟩

theorem Session.ids_handing (kind : RecordKind) (s : Session) :
    (s.handing kind).ids kind = s.ids kind + 1 := if_pos rfl

namespace Store

variable {α β : Type}

-- ============================================================================
-- Entries
-- ============================================================================

section Record

variable (org : String) (user : Option String) (entityKind entity action : String) (details : Json)
  (s : Session)

/-- If the trail takes entries, one is added, unless its id is in use. -/
theorem result_addAudit :
    result (addAudit org user entityKind entity action details) s =
      if s.refusesAudit then (.error (.store .constraint), s.handing .audit)
      else result (add (s.entry org user entityKind entity action details)) (s.handing .audit) := by
  rw [addAudit, result_bind]
  show result (if s.refusesAudit then _ else _) (s.handing .audit) = _
  split <;> rfl

/-- An entry is added to the trail, or all that is not yet committed is dropped. -/
theorem result_record :
    ∃ working, result (record org user entityKind entity action details) s =
        (.ok (), { s.handing .audit with working }) ∧
      (working = s.committed ∨ s.refusesAudit = false ∧ working = { s.working with
        audit := s.working.audit ++ [s.entry org user entityKind entity action details] }) := by
  rw [record, result_tryCatch, result_addAudit]
  cases hrefuses : s.refusesAudit with
  | true => exact ⟨s.committed, rfl, .inl rfl⟩
  | false =>
    rw [if_neg Bool.false_ne_true, result_add]
    by_cases hclash : (Record.all (s.handing .audit).working).any
        (Record.clash (s.entry org user entityKind entity action details))
    · rw [if_pos hclash]
      exact ⟨s.committed, rfl, .inl rfl⟩
    · rw [if_neg hclash]
      exact ⟨_, rfl, .inr ⟨rfl, rfl⟩⟩

end Record

-- ============================================================================
-- Holding on to what was read
-- ============================================================================

/-- Whether an entry that was asked for since a session was not taken. -/
def Missed (s s' : Session) : Bool := s'.refusesAudit && s'.ids .audit != s.ids .audit

/-- Whoever holds on to what was read fails if an entry was not taken, and changes nothing else. -/
theorem result_holding (act : Tx α) (s : Session) :
    result (holding act) s =
      ((result act s).1.bind fun a => if Missed s (result act s).2 then .error
        (.store .expired) else .ok a,
        (result act s).2) := by
  have hbegin : result (holding act) s = result (act >>= fun a => get >>= fun s' =>
      if s'.refusesAudit && s'.ids .audit != s.ids .audit then throw (.store .expired)
        else pure a) s := rfl
  rw [hbegin, result_bind]
  rcases result act s with ⟨f | a, s'⟩
  · rfl
  · show result (if Missed s s' then throw (.store .expired) else pure a) s' =
      (if Missed s s' then _ else _, s')
    split <;> rfl

/-- To hold entries to the session leaves the same session. -/
theorem snd_result_holding (act : Tx α) (s : Session) :
    (result (holding act) s).2 = (result act s).2 := by
  rw [result_holding]

/-- With the entry the act that asks for it fails, if the trail takes no entries. -/
theorem result_holding_record (org : String) (user : Option String)
    (entityKind entity action : String)
    (details : Json) (s : Session) :
    ∃ working, result (holding (record org user entityKind entity action details)) s =
        (if s.refusesAudit then .error (.store .expired) else .ok (),
          { s.handing .audit with working }) ∧
      (working = s.committed ∨ s.refusesAudit = false ∧ ∃ e : AuditEntry, e.org = org ∧
        working = { s.working with audit := s.working.audit ++ [e] }) := by
  obtain ⟨working, hrecord, hworking⟩ := result_record org user entityKind entity action details s
  refine ⟨working, ?_, hworking.imp_right fun h => ⟨h.1, _, rfl, h.2⟩⟩
  have hmissed : Missed s { s.handing .audit with working } = s.refusesAudit := by
    have hne : ((s.handing .audit).ids .audit != s.ids .audit) = true := by
      rw [Session.ids_handing]
      exact bne_iff_ne.2 (Nat.succ_ne_self _)
    show (s.refusesAudit && (s.handing .audit).ids .audit != s.ids .audit) = s.refusesAudit
    rw [hne, Bool.and_true]
  rw [result_holding, hrecord, hmissed]
  rfl

/-- If no entry has the id of the next one, the act that asks for it fails only if the trail takes
no entries. -/
theorem result_holding_record_of_free {s : Session} (h : ∀ e ∈ s.working.audit, e.id ≠ s.nextEntry)
    (org : String) (user : Option String) (entityKind entity action : String) (details : Json) :
    ∃ e : AuditEntry, result (holding (record org user entityKind entity action details)) s =
      if s.refusesAudit then (.error (.store .expired),
        { s.handing .audit with working := s.committed })
      else (.ok (), { s.handing .audit with
        working := { s.working with audit := s.working.audit ++ [e] } }) := by
  -- The id of the entry is free, so the entry clashes with none.
  have hclash : (Record.all (s.handing .audit).working).any
      (Record.clash (s.entry org user entityKind entity action details)) = false :=
    List.any_eq_false.2 fun other hother hsame => h other hother (beq_iff_eq.1 hsame).symm
  obtain ⟨working, hholding, -⟩ := result_holding_record org user entityKind entity action details s
  -- A refused entry undoes what the session has not committed; one that is taken comes behind all
  -- others.
  have hrecord : (result (holding (record org user entityKind entity action details)) s).2.working =
      if s.refusesAudit then s.committed else { s.working with
        audit := s.working.audit ++ [s.entry org user entityKind entity action details] } := by
    rw [snd_result_holding, record, result_tryCatch, result_addAudit]
    cases s.refusesAudit with
    | true => rfl
    | false =>
      rw [if_neg Bool.false_ne_true, result_add, hclash]
      rfl
  rw [hholding] at hrecord
  obtain rfl : working = _ := hrecord
  refine ⟨s.entry org user entityKind entity action details, hholding.trans ?_⟩
  split <;> rfl

end Store
end Casework
