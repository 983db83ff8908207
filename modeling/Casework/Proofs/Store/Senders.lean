/-
  Casework.Proofs.Store.Senders

  The addresses of an organization in the store, and the mail that they let through. What is refused
  leaves the store as it was. What is taken is kept in normal form and read back as it was kept, and
  from then on mail names a sender exactly if the sender was submitted.
-/
import Casework.Proofs.Access.Sender
import Casework.Proofs.Program.Planning
import Casework.Proofs.Task.Answer
import Casework.Run.Activities

namespace Casework

open Store

/-- The addresses that are kept for an organization. -/
def Records.senders? (records : Records) (org : String) : Option Json :=
  (records.senders.find? fun kept => kept.org == org).map SenderList.addresses

namespace Sender

/-- What a taken list holds of what was submitted. -/
structure Taken (items : List Json) (addresses : List String) : Prop where
  cleaned : addresses = Sender.cleaned items
  nodup : addresses.Nodup
  few : addresses.length ≤ 25
  plain : ∀ a ∈ addresses, (∀ c ∈ a.toList, Text.isBlank c = false) ∧ a.toList.count '@' = 1

/-- Mail of an organization to a recipient and from a sender. -/
structure Mail (params : Fields) (org recipient sender : String) : Prop where
  org : params.value "org_id" = .text org
  recipient : params.value "to" = .text recipient
  sender : params.value "from" = .text sender

/-- The answer to mail that was sent. -/
def sent (recipient sender : String) : Json :=
  .obj
    [("from",
      .text (if Text.isBlankText sender then Activities.defaultSender else Text.trim sender)),
    ("to", .text (Text.trim recipient)), ("delivered", .bool true)]

/-- Mail is sent if it has a recipient, and names no sender or one of those that were submitted. -/
def Passes (items : List Json) (recipient sender : String) : Prop :=
  Text.isBlankText recipient = false ∧
    (Text.isBlankText sender ∨
      ∃ s, .text s ∈ items ∧ Text.lower (Text.trim s) = Text.lower (Text.trim sender))

end Sender

namespace Store

variable {org : String} {s : Session}

-- ============================================================================
-- Reading
-- ============================================================================

theorem result_senderList? (org : String) (s : Session) :
    result (senderList? (.text org)) s =
      (.ok (s.working.senders.find? fun kept => kept.org == org), s) := by
  rw [← List.head?_filter]
  rfl

/-- The senders of an organization are read as they are kept, cleaned once more. -/
theorem result_sendersOf (org : String) (s : Session) :
    result (sendersOf (.text org)) s =
      (.ok (((s.working.senders? org).map Sender.sanitize).getD []), s) := by
  rw [sendersOf, result_bind, result_senderList?, Records.senders?]
  cases s.working.senders.find? fun kept => kept.org == org <;> rfl

-- ============================================================================
-- Writing
-- ============================================================================

/-- Only a text is the same as a text. -/
theorem eq_text_of_same {j : Json} {address : String} (h : j.same (.text address)) :
    j = .text address := by
  cases j with
  | text s =>
    simp only [Json.same, Json.sameKey, Json.key, Table.same_text_iff, Key.text.injEq] at h
    rw [h]
  | null | bool | number => simp [Json.same, Json.sameKey, Json.key, Table.same_text_iff] at h
  | list | object => simp [Json.same, Json.sameKey, Json.key] at h

/-- A document that is equal by value to a list of texts is this list. -/
theorem eq_texts_of_same {j : Json} {addresses : List String} (h : j.same (.texts addresses)) :
    j = .texts addresses := by
  cases j with
  | list items =>
    rw [Json.texts, Json.same] at h
    -- By induction on the items, each of which is the same as the text at its place.
    induction items generalizing addresses with
    | nil =>
      cases addresses with
      | nil => rfl
      | cons a rest => cases h
    | cons item items ih =>
      cases addresses with
      | nil => cases h
      | cons a rest =>
        rw [List.map_cons, Json.sameItems, Bool.and_eq_true] at h
        have hrest := Json.list.inj (ih h.2)
        rw [eq_text_of_same h.1, hrest]
        rfl
  | null | bool | number | text | object =>
    simp [Json.texts, Json.same, Json.sameKey, Json.key] at h

theorem result_setSenders_of_error {submitted : Json} {refusal : Sender.Refusal}
    (h : Sender.submit submitted = .error refusal) :
    result (setSenders org submitted) s = (.error (.invalid refusal.message), s) := by
  rw [setSenders, h]
  rfl

/-- What may be submitted is kept, and is what the organization has from then on. -/
theorem exists_result_setSenders (org : String) (s : Session) {submitted : Json}
    {addresses : List String} (h : Sender.submit submitted = .ok addresses) :
    ∃ s', result (setSenders org submitted) s = (.ok addresses, s') ∧
      s'.working.senders? org = some (.texts addresses) := by
  rw [setSenders, h]
  dsimp only
  rw [result_bind_of_ok (result_bareNow s), result_bind_of_ok (result_senderList? org s)]
  -- The organization has no list yet.
  cases hkept : s.working.senders.find? fun kept => kept.org == org with
  | none =>
    have hfree : (Record.all s.working).any
        (Record.clash (SenderList.mk org (.texts addresses) s.now.bare)) = false := by
      rw [List.any_eq_false]
      intro kept hmem hclash
      exact List.find?_eq_none.1 hkept kept hmem (beq_iff_eq.2 (beq_iff_eq.1 hclash).symm)
    dsimp only
    rw [result_bind, result_add, hfree]
    refine ⟨_, rfl, ?_⟩
    show ((s.working.senders ++ [_]).find? _).map _ = _
    rw [List.find?_append, hkept]
    simp
  | some kept =>
    dsimp only
    split
    -- It has this list already.
    case isTrue hsame =>
      refine ⟨s, rfl, ?_⟩
      rw [Records.senders?, hkept, Option.map_some, eq_texts_of_same hsame]
    -- It has another list, which is replaced; no other list is touched.
    case isFalse =>
      rw [result_bind, result_change]
      refine ⟨_, rfl, ?_⟩
      have horg := List.find?_some hkept
      show ((s.working.senders.map fun r : SenderList =>
        if r.org == org then _ else r).find? _).map _ = _
      rw [List.find?_map]
      have hsame : ((fun r : SenderList => r.org == org) ∘ fun r : SenderList =>
          if r.org == org then { r with addresses := .texts addresses, updated :=
            s.now.bare } else r) =
            fun r => r.org == org := by
        funext r
        dsimp only [Function.comp]
        split <;> rfl
      rw [hsame, hkept, Option.map_some, Option.map_some, if_pos horg]

-- ============================================================================
-- Mail
-- ============================================================================

/-- What comes of mail: it is refused without a recipient, and from a sender that is not allowed. -/
theorem fst_result_sendMail {params : Fields} {recipient sender : String} {allowed : List String}
    (hmail : Sender.Mail params org recipient sender)
    (h : result (sendersOf (.text org)) s = (.ok allowed, s)) :
    (result (Activities.perform .sendMail params) s).1 =
      if Text.isBlankText recipient then .error (.application "send_email has no recipient" true)
      else if Text.isBlankText sender || Sender.isAllowed allowed (Text.trim sender) then
        .ok (Sender.sent recipient sender)
      else .error (.application ("Sender " ++ Text.trim sender ++
        " is not in the organization's allowed from addresses") true) := by
  -- Recipient and sender are texts, which are trimmed.
  have hrecipient : result (liftFault (Json.text recipient).trimmedText) s =
      (.ok (Text.trim recipient), s) := rfl
  have hsender : result (liftFault (Json.text sender).trimmedText) s =
    (.ok (Text.trim sender), s) := rfl
  have horg : result (Activities.required params "org_id") s = (.ok (.text org), s) := by
    rw [Activities.required, Plan.requiredField_of_value hmail.org (by simp)]
    rfl
  rw [Activities.perform, Activities.sendMail, hmail.recipient, hmail.sender,
    result_bind_of_ok hrecipient, Text.trim_beq_empty, Sender.sent]
  split
  -- Without a recipient nothing else is looked at.
  case isTrue => rfl
  case isFalse =>
    rw [result_bind_of_ok hsender, bne, Text.trim_beq_empty]
    -- A blank sender stands for the default one, which needs no permission.
    cases Text.isBlankText sender with
    | true => rfl
    | false =>
      rw [Bool.not_false, if_pos rfl, result_bind_of_ok horg, result_bind_of_ok h, Bool.false_or]
      cases Sender.isAllowed allowed (Text.trim sender) <;> rfl

/-- Once addresses are kept as they were cleaned, mail is sent exactly if it passes. -/
theorem fst_result_sendMail_eq_ok_iff {params : Fields} {recipient sender : String}
    {items : List Json}
    {answer : Json} (hmail : Sender.Mail params org recipient sender)
    (h : result (sendersOf (.text org)) s = (.ok (Sender.cleaned items), s)) :
    (result (Activities.perform .sendMail params) s).1 = .ok answer ↔
      answer = Sender.sent recipient sender ∧ Sender.Passes items recipient sender := by
  rw [fst_result_sendMail hmail h, Sender.Passes]
  cases Text.isBlankText recipient with
  | true => simp
  | false =>
    cases hsender : Text.isBlankText sender with
    | true => simp [eq_comm]
    | false =>
      rw [← Sender.isAllowed_cleaned hsender]
      cases Sender.isAllowed (Sender.cleaned items) (Text.trim sender) <;> simp [eq_comm]

-- ============================================================================
-- Submitted lists and the mail after them
-- ============================================================================

/-- A submitted list is taken exactly if it is a list of at most so many addresses in good form;
else nothing changes. What is taken is cleaned, kept and read back as it is, and from then on mail
is sent exactly if it passes, in whatever session. -/
theorem senders_let_through (org : String) (submitted : Json) (s : Session) :
    match transact (setSenders org submitted) s with
    | (.error _, s') =>
      s'.committed = s.committed ∧
        ¬ ∃ items, submitted = .list items ∧ (Sender.cleaned items).length ≤ 25 ∧
          ∀ a ∈ Sender.cleaned items, Sender.Formed a
    | (.ok addresses, s') =>
      s'.committed.senders? org = some (.texts addresses) ∧
        ∃ items, submitted = .list items ∧ Sender.Taken items addresses ∧
          ∀ t : Session, t.working.senders? org = s'.committed.senders? org →
            (transact (sendersOf (.text org)) t).1 = .ok addresses ∧
              ∀ params recipient sender answer, Sender.Mail params org recipient sender →
                ((transact (Activities.perform .sendMail params) t).1 = .ok answer ↔
                  answer = Sender.sent recipient sender ∧
                    Sender.Passes items recipient sender) := by
  -- What is refused is not kept, and is malformed or too much.
  cases hsubmit : Sender.submit submitted with
  | error refusal =>
    rw [transact_of_error (result_setSenders_of_error hsubmit)]
    refine ⟨rfl, ?_⟩
    rintro ⟨items, hlist, hfew, hformed⟩
    have hok := Sender.submit_eq_ok_iff.2 ⟨items, hlist, rfl, hfew, hformed⟩
    rw [hsubmit] at hok
    cases hok
  -- What is kept is read back in any session that has the same list.
  | ok addresses =>
    obtain ⟨s', hresult, hkept⟩ := exists_result_setSenders org s hsubmit
    obtain ⟨items, hlist, hcleaned, hfew, hformed⟩ := Sender.submit_eq_ok_iff.1 hsubmit
    rw [transact_of_ok hresult]
    refine ⟨hkept, items, hlist, ?_, fun t ht => ?_⟩
    · exact ⟨hcleaned, hcleaned ▸ Sender.nodup_cleaned items, hfew,
        fun a ha => ⟨(hformed a ha).not_blank, (hformed a ha).count_sign⟩⟩
    · have hread : result (sendersOf (.text org)) t = (.ok (Sender.cleaned items), t) := by
        rw [result_sendersOf, ht.trans hkept, Option.map_some, hcleaned, Sender.sanitize_cleaned,
          Option.getD_some]
      refine ⟨?_, fun params recipient sender answer hmail => ?_⟩
      · rw [fst_transact, hread, hcleaned]
      · rw [fst_transact]
        exact fst_result_sendMail_eq_ok_iff hmail hread

/-- A list that names one address in two spellings. -/
def salesList : List Json := [.text " Sales@X.io ", .number (.whole 3), .text "sales@x.io"]

/-- An empty store at noon. -/
def noon : Session := opened ⟨⟨2024, 5, 17⟩, 12, 0, 0, 0, none⟩

/-- The address is kept once, and mail may name it in any case. -/
theorem senders_let_through_salesList :
    ∃ s', transact (setSenders "acme" (.list salesList)) noon = (.ok ["sales@x.io"], s') ∧
      (transact (Activities.perform .sendMail
        ⟨[("org_id", .text "acme"), ("to", .text "ann@y.io"), ("from", .text "SALES@x.io ")]⟩)
          s').1 =
          .ok (Sender.sent "ann@y.io" "SALES@x.io ") := by
  have hsubmit : Sender.submit (.list salesList) = .ok ["sales@x.io"] := by decide +kernel
  obtain ⟨s', hresult, -⟩ := exists_result_setSenders "acme" noon hsubmit
  have hthrough := senders_let_through "acme" (.list salesList) noon
  rw [transact_of_ok hresult] at hthrough
  obtain ⟨-, items, hitems, -, hmail⟩ := hthrough
  cases hitems
  have hpasses : Sender.Passes salesList "ann@y.io" "SALES@x.io " :=
    ⟨by decide, .inr ⟨"sales@x.io", by simp [salesList], by decide +kernel⟩⟩
  have hsent := (hmail { s' with committed := s'.working } rfl).2
  exact ⟨_, transact_of_ok hresult, (hsent _ _ _ _ ⟨rfl, rfl, rfl⟩).2 ⟨rfl, hpasses⟩⟩

end Store
end Casework
