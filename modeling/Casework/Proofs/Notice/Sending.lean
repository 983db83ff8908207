/-
  Casework.Proofs.Notice.Sending

  What giving notices does to the store. Every user that is told gets one notice, behind those that
  are there, and nothing else changes. Recipients are told in the order of the members, each user
  once.
-/
import Casework.Notice.Sending
import Casework.Proofs.Access.Recipient
import Casework.Proofs.Store.Frame
import Casework.Proofs.Store.View

namespace Casework

open Result Store

namespace Session

/-- The ids of notices that are still to be handed out are in no use. -/
def NoticesUnused (s : Session) : Prop :=
  ∀ n, s.ids .notice < n → ∀ notice ∈ s.working.notices, notice.id ≠ RecordKind.notice.idOf n

/-- The id that the next notice is given. -/
def nextNotice (s : Session) : String := RecordKind.notice.idOf (s.ids .notice + 1)

/-- The session after a notice was given under the next id. -/
def noted (s : Session) (notice : Notice) : Session :=
  { s with
    ids := fun k => if k = .notice then s.ids .notice + 1 else s.ids k
    working := { s.working with notices := s.working.notices ++ [notice] } }

/-- After a notice with the next id, the later ids are still unused. -/
theorem NoticesUnused.noted {s : Session} (h : s.NoticesUnused) {notice : Notice}
    (hid : notice.id = s.nextNotice) : (s.noted notice).NoticesUnused := by
  intro n hn other hother
  have hn : s.ids .notice + 1 < n := hn
  rcases List.mem_append.1 hother with hother | hother
  · exact h n (by omega) other hother
  · obtain rfl := List.mem_singleton.1 hother
    intro hsame
    have hnumber := (RecordKind.idOf_inj (hid.symm.trans hsame)).2
    omega

end Session

namespace Store

variable {s : Session}

theorem result_freshId_notice (s : Session) :
    result (freshId .notice) s =
      (.ok s.nextNotice,
        { s with ids := fun k => if k = .notice then s.ids .notice + 1 else s.ids k }) := rfl

/-- A notice is put behind those that are there. -/
theorem result_createNotice (hs : s.NoticesUnused) {org : Json} {d : NoticeDraft} {notice : Notice}
    (h : d.notice s.nextNotice org s.now.bare = .ok notice) :
    result (createNotice org d) s = (.ok notice, s.noted notice) := by
  have hid : notice.id = s.nextNotice := (keys_of_notice h).1
  have hfree : (Record.all s.working).any (Record.clash notice) = false := by
    rw [List.any_eq_false]
    intro other hother hclash
    have hsame : notice.id = other.id := beq_iff_eq.1 hclash
    exact hs _ (Nat.lt_succ_self _) other hother (hsame.symm.trans hid)
  have hcolumns : ∀ s', result (liftColumn (Except.ok notice)) s' = (.ok notice, s') := fun _ => rfl
  rw [createNotice, result_bind_of_ok (result_freshId_notice s),
    result_bind_of_ok (result_bareNow _)]
  dsimp only
  rw [h, result_bind_of_ok (hcolumns _), result_bind, result_add, hfree]
  rfl

/-- A blank text gives way to the default, every other one is trimmed. -/
theorem trimmedOr_text (default text : String) :
    trimmedOr default (.text text) = .ok
    (if Text.isBlankText text then default else Text.trim text) := by
  rw [trimmedOr, Json.trimmedText, ok_bind, Text.trim_beq_empty]
  rfl

/-- A notice about an execution that has just been given to a user. -/
def noticeFor (org execution title message : String) (moment : Moment) (id user : String) :
    Notice where
  id := id
  org := org
  user := user
  kind := "workflow_notification"
  title := if Text.isBlankText title then defaultNoticeTitle else Text.trim title
  message := if Text.isBlankText message then defaultNoticeMessage else Text.trim message
  entityKind := if execution != "" then some "workflow_execution" else none
  entity := some execution
  isRead := false
  readAt := none
  details := .null
  created := moment

/-- What the columns of such a notice are given. -/
def draftFor (execution title message user : String) : NoticeDraft where
  user := .text user
  kind := "workflow_notification"
  title := if Text.isBlankText title then defaultNoticeTitle else Text.trim title
  message := if Text.isBlankText message then defaultNoticeMessage else Text.trim message
  entityKind := if (Json.text execution).truthy then some "workflow_execution" else none
  entity := .text execution

/-- The first user of a list gets a notice, and then the others do. -/
theorem result_tellUsers_cons (org execution title message : String) (hs : s.NoticesUnused)
    (user : String)
    (rest : List String) :
    result (tellUsers (.text org) (.text title) (.text message) (.text execution)
      (user :: rest)) s =
      result (tellUsers (.text org) (.text title) (.text message) (.text execution) rest)
        (s.noted (noticeFor org execution title message s.now.bare s.nextNotice user)) := by
  have hgiven : result (discard (createNotice (.text org) (draftFor execution title message user)))
    s =
      (.ok (), s.noted (noticeFor org execution title message s.now.bare s.nextNotice user)) :=
    (result_map (fun _ => ()) _ s).trans (by rw [result_createNotice hs rfl]; rfl)
  refine result_bind_of_ok (a := ()) ?_
  dsimp only
  rw [trimmedOr_text, trimmedOr_text]
  exact hgiven

/-- Every user of a list gets a notice, in the order of the list. -/
theorem result_tellUsers (org execution title message : String) (hs : s.NoticesUnused)
    (users : List String) :
    ∃ s' notices,
      result (tellUsers (.text org) (.text title) (.text message) (.text execution) users) s =
        (.ok (), s') ∧
        s'.working = { s.working with notices := s.working.notices ++ notices } ∧
        s'.committed = s.committed ∧ notices.map Notice.user = users ∧
        ∀ n ∈ notices, n = noticeFor org execution title message s.now.bare n.id n.user := by
  induction users generalizing s with
  | nil => exact ⟨s, [], rfl, by simp, rfl, rfl, by simp⟩
  -- By induction on the users: the first notice takes the next id, so the ids behind it are unused
  -- for the rest.
  | cons user rest ih =>
    obtain ⟨s', notices, hresult, hworking, hcommitted, husers, htold⟩ :=
      ih (hs.noted (show (noticeFor org execution title message s.now.bare s.nextNotice user).id =
        s.nextNotice from rfl))
    refine ⟨s', noticeFor org execution title message s.now.bare s.nextNotice user ::
      notices, ?_, ?_,
      hcommitted, ?_, ?_⟩
    · rw [result_tellUsers_cons org execution title message hs, hresult]
    · rw [hworking]
      simp [Session.noted]
    · rw [List.map_cons, husers]
      rfl
    · exact List.forall_mem_cons.2 ⟨rfl, htold⟩

end Store

-- ============================================================================
-- Recipients
-- ============================================================================

/-- The members of an organization, the oldest first. -/
def Records.membersOf (records : Records) (org : String) : List Membership :=
  oldestFirst Membership.created (records.members.filter fun m => m.org == org)

/-- The users whom a notice to an audience is for, in the order of the members and each of them
once. -/
def Records.reached (records : Records) (org : String) (audience : Audience) : List String :=
  (((records.membersOf org).filter fun m => audience.reaches m.user m.email m.roleNames).map
    Membership.user).eraseDups

/-- Nobody is reached twice. -/
theorem Records.nodup_reached (records : Records) (org : String) (audience : Audience) :
    (records.reached org audience).Nodup := by
  rw [reached, ← Role.union_nil]
  exact Role.nodup_union List.nodup_nil _

/-- Nobody is reached by blank texts. -/
theorem Records.reached_of_blank {audience : Audience} (h : audience.Blank) (records : Records)
    (org : String) : records.reached org audience = [] := by
  have hnobody : ((records.membersOf org).filter fun m =>
      audience.reaches m.user m.email m.roleNames) = [] :=
    List.filter_eq_nil_iff.2 fun m _ => by simp [Audience.not_reaches_of_blank h]
  rw [reached, hnobody]
  rfl

/-- The further roles of the members of an organization are texts. -/
def Records.RolesReadable (records : Records) (org : String) : Prop :=
  ∀ m ∈ records.members, m.org = org → m.Readable

theorem Records.RolesReadable.readable {records : Records} {org : String}
    (h : records.RolesReadable org) :
    ∀ m ∈ records.membersOf org, m.Readable := by
  intro m hm
  rw [Records.membersOf, oldestFirst, List.mem_mergeSort, List.mem_filter] at hm
  exact h m hm.1 (beq_iff_eq.1 hm.2)

namespace Store

variable {s : Session} {org : String}

/-- The memberships of an organization are taken in as the members that they show. -/
theorem result_membersOf (h : s.working.RolesReadable org) :
    result (membersOf (.text org)) s =
      (.ok ((s.working.membersOf org).map Membership.shown), s) := by
  have hmembers : (s.working.membersOf org).mapM Membership.member =
      .ok ((s.working.membersOf org).map Membership.shown) :=
    (Membership.resolve_member .organization h.readable).1
  have hown : (fun m : Membership => some m.org == some org) = fun m => m.org == org := by
    funext m
    simp
  show result (liftFault ((oldestFirst Membership.created
    (s.working.members.filter fun m => some m.org == some org)).mapM Membership.member)) s = _
  rw [hown]
  exact congrArg (fun found => (Failure.ofFault found, s)) hmembers

/-- Recipients are told in the order of the members, each user once. -/
theorem result_tellRecipients (execution title message : String) (hs : s.NoticesUnused)
    (h : s.working.RolesReadable org) (audience : Audience) :
    ∃ s' notices,
      result (tellRecipients (.text org) audience.toJson (.text title) (.text message)
        (.text execution)) s =
          (.ok (s.working.reached org audience), s') ∧
        s'.working = { s.working with notices := s.working.notices ++ notices } ∧
        s'.committed = s.committed ∧ notices.map Notice.user = s.working.reached org audience ∧
        ∀ n ∈ notices, n = noticeFor org execution title message s.now.bare n.id n.user := by
  -- What the recipients are written as is read back.
  have hread : result (liftFault (Recipients.ofConfig (audience.toJson.orElse (.obj [])))) s =
      (.ok audience.recipients, s) := by
    rw [Audience.orElse_toJson, Audience.ofConfig_toJson]
    rfl
  have hreached : result (liftFault (audience.recipients.resolve
      ((s.working.membersOf org).map Membership.shown))) s =
        (.ok (((s.working.membersOf org).filter fun m =>
          audience.reaches m.user m.email m.roleNames).map Membership.user), s) := by
    rw [(Membership.resolve_member audience h.readable).2]
    rfl
  obtain ⟨s', notices, htold, hworking, hcommitted, husers, hall⟩ :=
    result_tellUsers org execution title message hs (s.working.reached org audience)
  refine ⟨s', notices, ?_, hworking, hcommitted, husers, hall⟩
  rw [tellRecipients, result_bind_of_ok (result_membersOf h), result_bind_of_ok hread,
    result_bind_of_ok hreached]
  dsimp only
  rw [Role.union_nil]
  exact result_bind_of_ok htold

end Store
end Casework
