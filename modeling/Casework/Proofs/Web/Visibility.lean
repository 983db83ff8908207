/-
  Casework.Proofs.Web.Visibility

  Field visibility is a barrier between actors and contacts. What an actor cannot read of contacts
  makes no difference to how the actor's requests to show or to change a contact are answered. And a
  contact is changed only if the actor can write all that the payload names: then just these fields
  are given new values, and the moment of the change is kept with them. Whatever else is in the way,
  of such a request nothing is left.
-/
import Casework.Proofs.Contact.Visibility
import Casework.Proofs.Web.Refusal

namespace Casework

open Store Result

-- ============================================================================
-- Sessions
-- ============================================================================

namespace Session

/-- The session of a store with other contacts. -/
def withContacts (s : Session) (contacts : List Contact) : Session :=
  { s with
    working := { s.working with contacts }
    committed := { s.committed with contacts } }

/-- What an actor can read and write of contacts, under the policies of the organization. -/
def fieldAccess (s : Session) (actor : AccessContext) : FieldAccess :=
  let kept := s.working.policies.filter fun p => p.org == actor.org && p.entity == "contact"
  FieldAccess.resolve (actor.role.toList ++ actor.roles)
    ((kept.map PolicyRecord.policy).mergeSort policyOrder)

/-- Alike contacts are found alike. -/
theorem rel_contact? {access : FieldAccess} {s : Session} {contacts : List Contact}
    (h : List.Forall₂ access.Alike s.working.contacts contacts) (id org : String) :
    Option.Rel access.Alike (s.contact? id org) ((s.withContacts contacts).contact? id org) := by
  show Option.Rel _ (s.working.contacts.find? _) (contacts.find? _)
  generalize s.working.contacts = before at h
  induction h with
  | nil => exact .none
  | @cons c c' _ _ hc _ ih =>
    have hsame : Record.isOf id org c' = Record.isOf id org c :=
      congrArg₂ (fun x y => x == id && y == org) hc.id hc.org
    rw [List.find?_cons, List.find?_cons, hsame]
    split
    · exact .some hc
    · exact ih

end Session

namespace Web.Service

open Response

-- ============================================================================
-- Contacts
-- ============================================================================

section Contacts

variable {actor : AccessContext} {id : String} {payload : Fields} {s : Session}

theorem result_showContact (actor : AccessContext) (id : String) (s : Session) :
    result (showContact actor id) s =
      (.ok ((s.contact? id actor.org).elim (.problem 404 (.text "Contact not found")) fun c =>
        .ok (.object ((s.fieldAccess actor).redact c.shown))), s) := by
  have hfind : result (contact? id actor.org) s = (.ok (s.contact? id actor.org), s) := rfl
  rw [showContact, result_bind, hfind]
  cases s.contact? id actor.org <;> rfl

/-- How a payload is refused by what can be written, if it is. -/
def refusal? (access : FieldAccess) (payload : Fields) : Option Response :=
  let unknown := payload.sortedNames.filter fun name => !contactFields.contains name
  if !unknown.isEmpty then
    some (.problem 400 (.text ("Unsupported contact field(s): " ++ ", ".intercalate unknown)))
  else if !(access.forbidden payload).isEmpty then
    some (.problem 403 (.obj [("error", .text "Forbidden contact field(s)"),
      ("fields", .texts (access.forbidden payload))]))
  else none

theorem refusal?_eq_none_iff {access : FieldAccess} :
    refusal? access payload = none ↔ access.Permits payload := by
  -- The two conditions of the refusal are read as statements about names.
  have hunknown : (payload.sortedNames.filter fun name => !contactFields.contains name).isEmpty =
    true ↔
      ∀ name, payload.has name = true → name ∈ contactFields := by
    simp [List.isEmpty_iff, List.filter_eq_nil_iff, Entries.sortedNames, List.mem_mergeSort,
      Entries.mem_names_iff]
  have hforbidden : (access.forbidden payload).isEmpty = true ↔
      ∀ name ∈ contactFields, payload.has name = true → name ∈ access.writable := by
    simp [List.isEmpty_iff, List.filter_eq_nil_iff, FieldAccess.forbidden]
  have hnone : refusal? access payload = none ↔
      (payload.sortedNames.filter fun name => !contactFields.contains name).isEmpty = true ∧
        (access.forbidden payload).isEmpty = true := by
    rw [refusal?]
    cases (payload.sortedNames.filter fun name => !contactFields.contains name).isEmpty <;>
      cases (access.forbidden payload).isEmpty <;> simp
  rw [hnone, hunknown, hforbidden]
  constructor
  · exact fun ⟨hfields, hwritable⟩ name hname =>
      ⟨hfields name hname, hwritable name (hfields name hname) hname⟩
  · exact fun h => ⟨fun name hname => (h name hname).1, fun name _ hname => (h name hname).2⟩

theorem status_of_refusal {access : FieldAccess} {response : Response}
    (h : refusal? access payload = some response) : response.status ≠ 200 := by
  rw [refusal?] at h
  split at h
  · cases h
    show 400 ≠ 200
    decide
  · split at h
    · cases h
      show 403 ≠ 200
      decide
    · cases h

/-- What is done once a contact was changed: the change is put into the audit trail, and shown. -/
def noteChange (actor : AccessContext) (id : String) (payload : Fields) (access : FieldAccess) :
    Option Fields → Tx Response
  | none => present "Contact" pure none
  | some shown => do
    holding <| record actor.org (some actor.user) "contact" id "updated" <| .obj [
      ("fields", .texts payload.sortedNames)]
    pure (.ok (.object (access.redact shown)))

theorem result_changeContact (actor : AccessContext) (id : String) (payload : Fields)
    (s : Session) :
    result (changeContact actor id payload) s =
      (refusal? (s.fieldAccess actor) payload).elim
        (result (updateContact id actor.org payload >>=
          noteChange actor id payload (s.fieldAccess actor)) s)
        fun response => (.ok response, s) := by
  unfold changeContact refusal?
  extract_lets unknown
  split
  · rfl
  · show result (if !((s.fieldAccess actor).forbidden payload).isEmpty then _ else _) s = _
    split
    · rfl
    · refine congrArg (fun act => result act s) (bind_congr fun found => ?_)
      cases found <;> rfl

theorem fst_noteChange (access : FieldAccess) (shown : Fields) (s : Session) :
    (result (noteChange actor id payload access (some shown)) s).1 =
      if s.refusesAudit then .error (.store .expired) else .ok
      (.ok (.object (access.redact shown))) := by
  obtain ⟨working, hrecord, -⟩ :=
    result_holding_record actor.org (some actor.user) "contact" id "updated"
    (.obj [("fields", .texts payload.sortedNames)]) s
  rw [noteChange, result_bind, hrecord]
  cases s.refusesAudit <;> rfl

section Alike

variable {contacts : List Contact}
  (h : List.Forall₂ (s.fieldAccess actor).Alike s.working.contacts contacts)

include h

theorem result_showContact_alike (id : String) :
    (result (showContact actor id) (s.withContacts contacts)).1 =
      (result (showContact actor id) s).1 := by
  have hfound := Session.rel_contact? h id actor.org
  rw [result_showContact, result_showContact]
  generalize s.contact? id actor.org = found at hfound
  generalize (s.withContacts contacts).contact? id actor.org = found' at hfound
  cases hfound with
  | none => rfl
  | some hc => exact congrArg (fun shown => Except.ok (Response.ok (.object shown))) hc.redact_eq

theorem result_changeContact_alike (id : String) (payload : Fields) :
    (result (changeContact actor id payload) (s.withContacts contacts)).1 =
      (result (changeContact actor id payload) s).1 := by
  have hfound := Session.rel_contact? h id actor.org
  -- Access is decided by roles and policies, of which the contacts are no part.
  have haccess : (s.withContacts contacts).fieldAccess actor = s.fieldAccess actor := rfl
  rw [result_changeContact, result_changeContact, haccess]
  cases refusal? (s.fieldAccess actor) payload with
  | some response => rfl
  | none =>
    show (result (_ >>= _) _).1 = (result (_ >>= _) _).1
    rw [result_bind, result_bind, result_updateContact, result_updateContact]
    generalize s.contact? id actor.org = found at hfound
    generalize (s.withContacts contacts).contact? id actor.org = found' at hfound
    cases hfound with
    | none => rfl
    | some hc =>
      dsimp only
      cases Contact.newValues payload with
      | error f => rfl
      | ok values =>
        dsimp only
        cases Contact.kept values with
        | error f => rfl
        | ok kept =>
          have hshown := (hc.asGiven values s.now).redact_eq
          have hnow : (s.withContacts contacts).now = s.now := rfl
          dsimp only
          rw [fst_noteChange, fst_noteChange, hnow, hshown]
          rfl

end Alike

/-- If all that is given for a contact can be written and kept, the contact is changed, and the
change is noted; but nothing of it is left if the trail takes no entries. -/
theorem result_changeContact_of_kept (hpermits : (s.fieldAccess actor).Permits payload)
    (hfree : ∀ e ∈ s.working.audit, e.id ≠ s.nextEntry) {c : Contact} {values : Contact.NewValues}
    {kept : Fields} (hc : s.contact? id actor.org = some c)
    (hvalues : Contact.newValues payload = .ok values)
    (hkept : Contact.kept values = .ok kept) :
    ∃ e : AuditEntry, result (changeContact actor id payload) s =
      if s.refusesAudit then (.error (.store .expired),
        { s.handing .audit with working := s.committed })
      else (.ok (.ok (.object ((s.fieldAccess actor).redact (c.asGiven values s.now).shown))),
        { s.handing .audit with
          working := { s.working.putContact id actor.org (c.changed kept s.now) with
            audit := s.working.audit ++ [e] } }) := by
  obtain ⟨e, hrecord⟩ := result_holding_record_of_free
    (s := { s with working := s.working.putContact id actor.org (c.changed kept s.now) }) hfree
    actor.org (some actor.user) "contact" id "updated"
      (.obj [("fields", .texts payload.sortedNames)])
  have hupdate := result_updateContact id actor.org payload s
  rw [hc, hvalues] at hupdate
  dsimp only at hupdate
  rw [hkept] at hupdate
  refine ⟨e, ?_⟩
  rw [result_changeContact, refusal?_eq_none_iff.2 hpermits, Option.elim_none, result_bind, hupdate]
  dsimp only
  rw [noteChange, result_bind]
  -- The entry for the audit log decides whether the change stays.
  by_cases hrefuses : s.refusesAudit = true
  · rw [if_pos hrefuses] at hrecord ⊢
    rw [hrecord]
    rfl
  · rw [if_neg hrefuses] at hrecord ⊢
    rw [hrecord]
    rfl

/-- If something cannot be written, or is not there or cannot be kept, nothing is changed. -/
theorem exists_result_changeContact_of_not_kept
    (h : (s.fieldAccess actor).Permits payload → ∀ c values kept, s.contact? id actor.org = some c →
      Contact.newValues payload = .ok values → Contact.kept values ≠ .ok kept) :
    ∃ x, result (changeContact actor id payload) s = (x, s) ∧
      ∀ response, x = .ok response → response.status ≠ 200 := by
  rw [result_changeContact]
  cases hrefusal : refusal? (s.fieldAccess actor) payload with
  | some response =>
    refine ⟨.ok response, rfl, fun _ hresponse => ?_⟩
    cases hresponse
    exact status_of_refusal hrefusal
  | none =>
    -- The fields may be written, so the contact is missing or its new values cannot be stored.
    have hnone := h (refusal?_eq_none_iff.1 hrefusal)
    rw [Option.elim_none, result_bind, result_updateContact]
    cases hc : s.contact? id actor.org with
    | none =>
      refine ⟨_, rfl, fun _ hresponse => ?_⟩
      cases hresponse
      show 404 ≠ 200
      decide
    | some c =>
      dsimp only
      cases hvalues : Contact.newValues payload with
      | error f => exact ⟨.error f, rfl, fun _ hresponse => nomatch hresponse⟩
      | ok values =>
        dsimp only
        cases hkept : Contact.kept values with
        | error f => exact ⟨.error (.store f), rfl, fun _ hresponse => nomatch hresponse⟩
        | ok kept => exact absurd hkept (hnone c values kept hc hvalues)

end Contacts

-- ============================================================================
-- Finite numbers
-- ============================================================================

section Finite

theorem haveFinite_iff {pairs : List (String × Json)} :
    haveFinite pairs = true ↔ ∀ pair ∈ pairs, isFinite pair.2 = true := by
  induction pairs with
  | nil => exact iff_of_true rfl fun _ h => absurd h List.not_mem_nil
  | cons pair rest ih => rw [haveFinite, Bool.and_eq_true, ih, List.forall_mem_cons]

/-- A new value is shown as it is given, as null, or as the text of a date. -/
theorem shown_of_newValue {name : String} {given : Json} {value : Contact.NewValue}
    (h : Contact.NewValue.of name given = .ok value) :
    value.shown = given ∨ value.shown = .null ∨ ∃ text, value.shown = .text text := by
  rw [Contact.NewValue.of] at h
  split at h
  · unfold Contact.NewValue.ofDate at h
    split at h
    · split at h
      · cases h
        exact .inr (.inl rfl)
      · split at h
        · cases h
          exact .inr (.inr ⟨_, rfl⟩)
        · cases h
    · cases h
      exact .inl rfl
  · split at h <;> cases h <;> exact .inl rfl

theorem isFinite_shownValue (name : String) {value : Json} (h : isFinite value = true) :
    isFinite (Contact.shownValue name value) = true := by
  unfold Contact.shownValue Json.orElse
  split_ifs <;> first | exact h | rfl

/-- A contact is shown with finite numbers only if it has no others and is given no others. -/
theorem isFinite_redact_asGiven {c : Contact} {payload : Fields} {values : Contact.NewValues}
    (hvalues : Contact.newValues payload = .ok values)
    (hgiven : ∀ pair ∈ payload.toList, isFinite pair.2 = true)
    (hkept : ∀ pair ∈ c.values.toList, isFinite pair.2 = true) (access : FieldAccess)
    (moment : Moment) :
    isFinite (.object (access.redact (c.asGiven values moment).shown)) = true := by
  -- What was stored is what was given, an absent value or a text, so it can be presented.
  have hshown : ∀ pair ∈ values.toList, isFinite pair.2.shown = true := by
    intro pair hpair
    obtain ⟨given, hmem, -, hof⟩ := Contact.exists_given_of_newValues hvalues hpair
    rcases shown_of_newValue hof with hsame | hnull | ⟨text, htext⟩
    · rw [hsame]
      exact hgiven given hmem
    · rw [hnull]
      rfl
    · rw [htext]
      rfl
  -- The row keeps its old values at the names that were not given.
  have hput : ∀ pair ∈ (c.put (values.map (·.shown))).values.toList, isFinite pair.2 = true := by
    intro pair hpair
    obtain ⟨old, hold, rfl⟩ := List.mem_map.1 hpair
    show isFinite (((values.map (·.shown)).get? old.1).getD old.2) = true
    cases hnew : (values.map (·.shown)).get? old.1 with
    | none => exact hkept old hold
    | some new =>
      obtain ⟨value, hvalue, hsame⟩ := List.mem_map.1 (Entries.mem_of_get? hnew)
      have hnew : value.2.shown = new := congrArg Prod.snd hsame
      rw [Option.getD_some, ← hnew]
      exact hshown value hvalue
  have hrow : ∀ pair ∈ (c.asGiven values moment).row.toList, isFinite pair.2 = true := by
    refine List.forall_mem_append.2 ⟨List.forall_mem_append.2 ⟨?_, hput⟩, ?_⟩
    · exact haveFinite_iff.1 rfl
    · exact haveFinite_iff.1 rfl
  rw [FieldAccess.redact_shown]
  refine haveFinite_iff.2 fun pair hpair => ?_
  obtain ⟨old, hold, rfl⟩ := List.mem_map.1 hpair
  show isFinite (access.seen old.1 old.2) = true
  rw [FieldAccess.seen]
  split
  · rfl
  · exact isFinite_shownValue _ (hrow old hold)

end Finite

-- ============================================================================
-- Routes
-- ============================================================================

section Routes

variable {r : Request} {s : Session} {actor : AccessContext} {id : String} {payload : Fields}

theorem result_asActor (hactor : (result (actorOf r) s).1 = .ok (some actor))
    (act : AccessContext → Tx Response) : result (asActor r act) s = result (act actor) s := by
  have hasked : result (actorOf r) s = (.ok (some actor), s) :=
    Prod.ext hactor (unchanged_actorOf r s)
  rw [asActor, result_bind, hasked]

/-- Who asks does not depend on contacts. -/
theorem fst_actorOf_withContacts (r : Request) (s : Session) (contacts : List Contact) :
    (result (actorOf r) (s.withContacts contacts)).1 = (result (actorOf r) s).1 := by
  unfold actorOf
  split
  case h_1 | h_2 => rfl
  case h_3 =>
    show (result (some <$> liftFault _) _).1 = (result (some <$> liftFault _) _).1
    rw [result_map, result_map]
    rfl

theorem status_ofFailure_ne (f : Failure) : (ofFailure f).status ≠ 200 := by
  cases f <;> simp [ofFailure, problem, document, broken]

/-- What is sent as a response: nothing with a number that cannot be written. -/
def sent (response : Response) : Except Failure Response :=
  if response.written.status == 500 then .error .unpresentable else .ok response.written

theorem status_sent_eq_iff {response : Response} :
    (responseOf (sent response)).status = 200 ↔ response.status = 200 ∧
      response.written = response := by
  rw [sent]
  split
  case isTrue hbroken =>
    refine iff_of_false (show 500 ≠ 200 by decide) ?_
    rintro ⟨hstatus, hwritten⟩
    rw [hwritten, hstatus] at hbroken
    cases hbroken
  case isFalse hfine =>
    show response.written.status = 200 ↔ _
    rcases status_written response with hsame | hbroken
    · rw [hsame]
      exact ⟨fun h => ⟨h, rfl⟩, And.left⟩
    · exact absurd (beq_iff_eq.2 hbroken) hfine

theorem result_answering {route : Route}
    (hroute : Route.find r.method.toUpper (partsOf r.target) = .route route) (s : Session) :
    result (answering r) s =
      ((result (answerRoute r route) s).1.bind sent, (result (answerRoute r route) s).2) := by
  have hmethod : answerMethod r r.method.toUpper = answerRoute r route := by
    rw [answerMethod, hroute]
  rw [answering, hmethod, result_bind]
  rcases result (answerRoute r route) s with ⟨f | response, s'⟩
  · rfl
  · dsimp only
    split
    case isTrue hbroken =>
      show (_, s') = (sent response, s')
      rw [sent, if_pos hbroken]
    case isFalse hfine =>
      show (_, s') = (sent response, s')
      rw [sent, if_neg hfine]

section Answer

variable {route : Route} (hroute : Route.find r.method.toUpper (partsOf r.target) = .route route)

include hroute

/-- A response is what a route gives. -/
theorem fst_answer_congr {s' : Session}
    (h : (result (answerRoute r route) s').1 = (result (answerRoute r route) s).1) :
    (answer r s').1 = (answer r s).1 := by
  have hsame : (transact (answering r) s').1 = (transact (answering r) s).1 := by
    rw [fst_transact, fst_transact, result_answering hroute, result_answering hroute, h]
  rw [answer_eq, answer_eq, hsame]

/-- A response is a success exactly if the route gives one that can be written. -/
theorem status_answer_eq_iff :
    (answer r s).1.status = 200 ↔ ∃ response, (result (answerRoute r route) s).1 = .ok response ∧
      response.status = 200 ∧ response.written = response := by
  rw [status_answer, fst_transact, result_answering hroute]
  cases (result (answerRoute r route) s).1 with
  | error f =>
    refine iff_of_false (status_ofFailure_ne f) ?_
    rintro ⟨_, h, -⟩
    cases h
  | ok response =>
    show (responseOf (sent response)).status = 200 ↔ _
    rw [status_sent_eq_iff]
    constructor
    · exact fun h => ⟨response, rfl, h⟩
    · rintro ⟨_, hsame, h⟩
      cases hsame
      exact h

/-- What was done is kept if the response is a success. -/
theorem committed_answer_of_success (h : (answer r s).1.status = 200) :
    (answer r s).2.committed = (result (answerRoute r route) s).2.working := by
  obtain ⟨response, hresponse, hstatus, hwritten⟩ := (status_answer_eq_iff hroute).1 h
  have hsent : sent response = .ok response := by
    rw [sent, hwritten, hstatus]
    rfl
  have hresult := result_answering hroute s
  rw [hresponse] at hresult
  rw [answer_eq, transact_of_ok (hresult.trans (congrArg (·, _) hsent))]

/-- What was done is dropped if there is a failure, or a success that cannot be written. -/
theorem committed_answer_of_failure (h : (answer r s).1.status ≠ 200)
    (hgiven : ∀ response, (result (answerRoute r route) s).1 = .ok response →
      response.status = 200) :
    (answer r s).2.committed = (result (answerRoute r route) s).2.committed := by
  have hresult := result_answering hroute s
  cases hx : (result (answerRoute r route) s).1 with
  | error f =>
    rw [hx] at hresult
    rw [answer_eq, transact_of_error hresult]
  | ok response =>
    have hstatus := hgiven response hx
    -- The only answer of another status is one that cannot be written.
    have hbroken : response.written.status = 500 := by
      rcases status_written response with hsame | hbroken
      · exact absurd ((status_answer_eq_iff hroute).2 ⟨response, hx, hstatus, hsame⟩) h
      · exact hbroken
    have hsent : sent response = .error .unpresentable := by
      rw [sent, hbroken]
      rfl
    rw [hx] at hresult
    rw [answer_eq, transact_of_error (hresult.trans (congrArg (·, _) hsent))]

/-- Where nothing was done, nothing is left. -/
theorem snd_answer_of_unchanged (hs : s.Settled) (h : (result (answerRoute r route) s).2 = s) :
    (answer r s).2 = s := by
  have hresult := result_answering hroute s
  rw [h] at hresult
  rw [answer_eq]
  cases hx : (result (answerRoute r route) s).1.bind sent with
  | error f =>
    rw [hx] at hresult
    rw [transact_of_error hresult]
    exact Task.Order.rollback_settled hs
  | ok response =>
    rw [hx] at hresult
    rw [transact_of_ok hresult]
    exact Task.Order.commit_settled hs

end Answer

section Actor

variable (hactor : (result (actorOf r) s).1 = .ok (some actor))

include hactor

theorem result_answerRoute_changeContact (hbody : r.body = .object payload) (id : String) :
    result (answerRoute r (.changeContact id)) s =
      if Role.may actor.role .writeContacts then result (changeContact actor id payload) s
      else (.ok (.problem 403 (.text ("Missing permission: " ++ Permission.writeContacts.word))),
        s) := by
  have hpayload : Payload.object r.body = .ok payload := by
    rw [hbody]
    rfl
  rw [answerRoute, result_asActor hactor, hpayload]
  show result (permitted _ _ _) s = _
  rw [permitted]
  split <;> rfl

/-- What an actor cannot read of contacts makes no difference to the responses about a contact. -/
theorem answer_alike {route : Route}
    (hroute : Route.find r.method.toUpper (partsOf r.target) = .route route)
    (hid : route = .showContact id ∨ route = .changeContact id) {contacts : List Contact}
    (h : List.Forall₂ (s.fieldAccess actor).Alike s.working.contacts contacts) :
    (answer r (s.withContacts contacts)).1 = (answer r s).1 := by
  have hactor' : (result (actorOf r) (s.withContacts contacts)).1 = .ok (some actor) :=
    (fst_actorOf_withContacts r s contacts).trans hactor
  have hpermitted : ∀ {p : Permission} {act : Tx Response},
      (result act (s.withContacts contacts)).1 = (result act s).1 →
      (result (permitted actor p act) (s.withContacts contacts)).1 =
        (result (permitted actor p act) s).1 := by
    intro p act hact
    rw [permitted]
    split
    · exact hact
    · rfl
  refine fst_answer_congr hroute ?_
  rcases hid with rfl | rfl
  · rw [answerRoute, result_asActor hactor, result_asActor hactor']
    exact hpermitted (result_showContact_alike h id)
  · rw [answerRoute, result_asActor hactor, result_asActor hactor']
    cases Payload.object r.body with
    | error violations => rfl
    | ok payload => exact hpermitted (result_changeContact_alike h id payload)

end Actor
end Routes

-- ============================================================================
-- The barrier
-- ============================================================================

/-- What comes of a request to change a contact, by what the actor can write. -/
structure ChangesWithin (r : Request) (id : String) (payload : Fields) (actor : AccessContext)
    (s : Session) :
    Prop where
  /-- Unless all that the payload names are fields that the actor can write, nothing is changed. -/
  refused : ¬ (s.fieldAccess actor).Permits payload → (answer r s).2 = s
  /-- Nothing is left of a request that does not succeed. -/
  failed : (answer r s).1.status ≠ 200 → (answer r s).2.committed = s.committed
  /-- If the request succeeds, just the named fields of the contact are given new values. -/
  succeeded : (answer r s).1.status = 200 → (s.fieldAccess actor).Permits payload ∧
    ∃ c c' entry, s.contact? id actor.org = some c ∧ c.GivenAnew payload s.now c' ∧
      (answer r s).2.committed =
        { s.committed.putContact id actor.org c' with audit := s.committed.audit ++ [entry] }
  /-- The request does succeed if nothing is in the way. -/
  succeeds : ∀ c, Role.may actor.role .writeContacts = true →
    (s.fieldAccess actor).Permits payload →
    s.contact? id actor.org = some c →
      (∀ pair ∈ payload.toList, ∃ k, Contact.Keeps pair.1 pair.2 k) →
    (∀ pair ∈ payload.toList ++ c.values.toList, isFinite pair.2 = true) → s.refusesAudit = false →
    (answer r s).1.status = 200

section Change

variable {r : Request} {id : String} {payload : Fields} {actor : AccessContext} {s : Session}
  (hs : s.Settled) (hroute : Route.find r.method.toUpper (partsOf r.target) =
    .route (.changeContact id))

include hs hroute

/-- If something is in the way, nothing is done. -/
theorem changesWithin_of_unchanged {x : Except Failure Response}
    (hresult : result (answerRoute r (.changeContact id)) s = (x, s))
    (hx : ∀ response, x = .ok response → response.status ≠ 200)
    (hway : Role.may actor.role .writeContacts = true → (s.fieldAccess actor).Permits payload →
      ∀ c values kept, s.contact? id actor.org = some c → Contact.newValues payload = .ok values →
        Contact.kept values ≠ .ok kept) :
    ChangesWithin r id payload actor s := by
  have hunchanged : (answer r s).2 = s :=
    snd_answer_of_unchanged hroute hs (congrArg Prod.snd hresult)
  have hstatus : (answer r s).1.status ≠ 200 := by
    intro h
    obtain ⟨response, hresponse, hok, -⟩ := (status_answer_eq_iff hroute).1 h
    rw [hresult] at hresponse
    exact hx response hresponse hok
  refine ⟨fun _ => hunchanged, fun _ => by rw [hunchanged], fun h => absurd h hstatus, ?_⟩
  intro c hmay hpermits hc hkeeps
  obtain ⟨values, kept, hvalues, hkept⟩ := Contact.exists_kept hkeeps
  exact absurd hkept (hway hmay hpermits c values kept hc hvalues)

/-- If nothing is in the way, the contact is changed; whether the change is kept depends on the
trail, and on whether the contact can be written out afterwards. -/
theorem changesWithin_of_changed (hpermits : (s.fieldAccess actor).Permits payload) {c : Contact}
    (hwhole : c.Whole) {values : Contact.NewValues} {kept : Fields} {e : AuditEntry}
    (hc : s.contact? id actor.org = some c) (hvalues : Contact.newValues payload = .ok values)
    (hkept : Contact.kept values = .ok kept)
    (hresult : result (answerRoute r (.changeContact id)) s =
      if s.refusesAudit then (.error (.store .expired),
        { s.handing .audit with working := s.committed })
      else (.ok (.ok (.object ((s.fieldAccess actor).redact (c.asGiven values s.now).shown))),
        { s.handing .audit with
          working := { s.working.putContact id actor.org (c.changed kept s.now) with
            audit := s.working.audit ++ [e] } })) :
    ChangesWithin r id payload actor s := by
  cases hrefuses : s.refusesAudit with
  -- The entry is refused: the change goes with it, and so does the answer.
  | true =>
    rw [if_pos hrefuses] at hresult
    have hstatus : (answer r s).1.status ≠ 200 := by
      intro h
      obtain ⟨response, hresponse, -⟩ := (status_answer_eq_iff hroute).1 h
      rw [hresult] at hresponse
      cases hresponse
    refine ⟨fun h => absurd hpermits h, fun h => ?_, fun h => absurd h hstatus, ?_⟩
    · rw [committed_answer_of_failure hroute h, hresult]
      · rfl
      · intro response hresponse
        rw [hresult] at hresponse
        cases hresponse
    · intro _ _ _ _ _ _ htaken
      rw [hrefuses] at htaken
      cases htaken
  | false =>
    rw [if_neg (by rw [hrefuses]; decide)] at hresult
    refine ⟨fun h => absurd hpermits h, fun h => ?_, fun h => ⟨hpermits, c, _, e, hc,
      hwhole.givenAnew hvalues hkept s.now, ?_⟩, ?_⟩
    · rw [committed_answer_of_failure hroute h, hresult]
      · rfl
      · intro response hresponse
        rw [hresult] at hresponse
        cases hresponse
        rfl
    · rw [committed_answer_of_success hroute h, hresult, ← hs]
    -- The answer can be written out, as its numbers were all finite before.
    · intro c' _ _ hc' _ hfinite _
      obtain rfl : c = c' := Option.some.inj (hc.symm.trans hc')
      have hshown := isFinite_redact_asGiven hvalues
        (fun pair hpair => hfinite pair (List.mem_append_left _ hpair))
        (fun pair hpair => hfinite pair (List.mem_append_right _ hpair)) (s.fieldAccess actor) s.now
      refine (status_answer_eq_iff hroute).2 ⟨_, congrArg Prod.fst hresult, rfl, ?_⟩
      exact if_pos hshown

/-- A contact is changed within what the actor can write. -/
theorem changesWithin (hfree : ∀ e ∈ s.working.audit, e.id ≠ s.nextEntry)
    (hwhole : ∀ c ∈ s.working.contacts, c.Whole)
    (hactor : (result (actorOf r) s).1 = .ok (some actor))
    (hbody : r.body = .object payload) : ChangesWithin r id payload actor s := by
  have hresult := result_answerRoute_changeContact hactor hbody id
  by_cases hmay : Role.may actor.role .writeContacts = true
  -- Without the permission nothing is looked at.
  case neg =>
    rw [if_neg hmay] at hresult
    refine changesWithin_of_unchanged hs hroute hresult (fun response hresponse => ?_)
      fun h => absurd h hmay
    cases hresponse
    show 403 ≠ 200
    decide
  case pos =>
    rw [if_pos hmay] at hresult
    by_cases hkeeps : (s.fieldAccess actor).Permits payload ∧ ∃ c values kept,
        s.contact? id actor.org = some c ∧ Contact.newValues payload = .ok values ∧
          Contact.kept values = .ok kept
    case pos =>
      obtain ⟨hpermits, c, values, kept, hc, hvalues, hkept⟩ := hkeeps
      obtain ⟨e, hchange⟩ := result_changeContact_of_kept hpermits hfree hc hvalues hkept
      exact changesWithin_of_changed hs hroute hpermits (hwhole c (List.mem_of_find?_eq_some hc)) hc
        hvalues hkept (hresult.trans hchange)
    -- The request is refused before its change, or the contact is not there.
    case neg =>
      have hway : (s.fieldAccess actor).Permits payload → ∀ c values kept,
          s.contact? id actor.org = some c → Contact.newValues payload = .ok values →
            Contact.kept values ≠ .ok kept :=
        fun hpermits c values kept hc hvalues hkept =>
          hkeeps ⟨hpermits, c, values, kept, hc, hvalues, hkept⟩
      obtain ⟨x, hunchanged, hx⟩ := exists_result_changeContact_of_not_kept hway
      exact changesWithin_of_unchanged hs hroute (hresult.trans hunchanged) hx fun _ => hway

end Change

/-- Field visibility is a barrier, for whatever actor, policies and contacts. What the actor cannot
read of contacts makes no difference to the responses to requests to show or to change a contact;
and a request to change a contact does so within what the actor can write. -/
theorem answer_within_fieldAccess (r : Request) (id : String) (actor : AccessContext) {s : Session}
    (hs : s.Settled) (hfree : ∀ e ∈ s.working.audit, e.id ≠ s.nextEntry)
    (hwhole : ∀ c ∈ s.working.contacts, c.Whole)
    (hactor : (result (actorOf r) s).1 = .ok (some actor)) :
    (∀ route, Route.find r.method.toUpper (partsOf r.target) = .route route →
      route = .showContact id ∨ route = .changeContact id →
      ∀ contacts, List.Forall₂ (s.fieldAccess actor).Alike s.working.contacts contacts →
        (answer r (s.withContacts contacts)).1 = (answer r s).1) ∧
    (Route.find r.method.toUpper (partsOf r.target) = .route (.changeContact id) →
      ∀ payload, r.body = .object payload → ChangesWithin r id payload actor s) :=
  ⟨fun _ hroute hid _ halike => answer_alike hactor hroute hid halike,
    fun hroute _ hbody => changesWithin hs hroute hfree hwhole hactor hbody⟩

/-- A store with a contact of which auditors can see and change the city, and nothing else. -/
def keptFrom (email : String) : Session :=
  let contact : Contact := {
    id := "c1"
    org := "org_2"
    values := Contact.noValues.put "email" (.text email)
    created := nothingKept.now
    updated := nothingKept.now }
  let policy : PolicyRecord := ⟨"policy-1", "org_2", "contact", ⟨"auditor", "city", true, true⟩⟩
  let records : Records := { contacts := [contact], policies := [policy] }
  { nothingKept with committed := records, working := records }

/-- Somebody who is no more than an auditor. -/
def auditor : AccessContext where
  user := "ann"
  org := "org_2"
  role := some "auditor"
  roles := ["auditor"]
  admin := false

/-- An auditor moves a contact to another city. -/
def auditorMoves : Request where
  method := "PATCH"
  target := "/api/v2/contacts/c1"
  user := some "ann"
  org := some "org_2"
  role := some "org:auditor"
  body := .obj [("city", .text "Rome")]

/-- Which address a contact has is not told to an auditor who moves it. -/
theorem answer_within_fieldAccess_auditorMoves :
    (answer auditorMoves (keptFrom "ada@here")).1.status = 200 ∧
      (answer auditorMoves (keptFrom "ada@there")).1 =
        (answer auditorMoves (keptFrom "ada@here")).1 ∧
      ChangesWithin auditorMoves "c1" ⟨[("city", .text "Rome")]⟩ auditor (keptFrom "ada@here") := by
  have haccess : (keptFrom "ada@here").fieldAccess auditor = ⟨["city"], ["city"]⟩ := by
    decide +kernel
  have hactor : (result (actorOf auditorMoves) (keptFrom "ada@here")).1 = .ok (some auditor) := by
    with_unfolding_all exact rfl
  have hroute : Route.find auditorMoves.method.toUpper (partsOf auditorMoves.target) =
      .route (.changeContact "c1") := by
    with_unfolding_all exact rfl
  have hwhole : ∀ email, ∀ c ∈ (keptFrom email).working.contacts, c.Whole := by
    intro email c hc
    obtain rfl := List.mem_singleton.1 hc
    exact Entries.names_put (by decide) _
  obtain ⟨hsame, hwithin⟩ := answer_within_fieldAccess auditorMoves "c1" auditor
    (s := keptFrom "ada@here") rfl (fun _ h => absurd h List.not_mem_nil) (hwhole _) hactor
  refine ⟨by decide +kernel, ?_, hwithin hroute _ rfl⟩
  refine hsame _ hroute (.inr rfl) (keptFrom "ada@there").working.contacts (.cons ?_ .nil)
  refine ⟨hwhole _ _ List.mem_cons_self, hwhole _ _ List.mem_cons_self, rfl, rfl, rfl, rfl, ?_⟩
  rw [haccess]
  intro name hname
  obtain rfl := List.mem_singleton.1 hname
  rfl

end Web.Service
end Casework
