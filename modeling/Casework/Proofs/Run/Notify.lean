/-
  Casework.Proofs.Run.Notify

  Whom the notices of a run reach. The recipients of a notification are written down four times on
  their way: as an author wrote them, as an audience in a program, as the parameters of work, and as
  the recipients that the work resolves among the members of an organization. Every time they are of
  the same kind, and only their texts change, by resolving and by rendering. So the instruction of a
  notification tells exactly the members that the rendered recipients are for.
-/
import Casework.Proofs.Notice.Sending
import Casework.Proofs.Program.Audience
import Casework.Proofs.Run.Act
import Casework.Run.Activities

namespace Casework

open Result Store

-- ============================================================================
-- What is asked for
-- ============================================================================

/-- The parameters of a notice besides those of every work. -/
def NoticePlan.params (notice : NoticePlan) : List (String × Json) :=
  [("recipients", notice.audience.toJson), ("title", .text notice.title),
    ("message", .text notice.message)]

/-- A notice with its texts rendered. -/
def NoticePlan.shown (notice : NoticePlan) (vars : Variables) : NoticePlan where
  audience := notice.audience.map fun s => Template.render s vars
  title := Template.render notice.title vars
  message := Template.render notice.message vars

namespace Run

variable {σ : Type}

theorem outcome_rendered_bind {β : Type} (j : Json) (next : String → Act σ β) (s : RunState σ) :
    outcome (rendered j >>= next) s =
      outcome (next (Template.render (j.text?.getD "") s.vars)) s := rfl

/-- A notice is asked for with its texts rendered. -/
theorem outcome_notify (world : World σ) (base : Base) (notice : NoticePlan) (s : RunState σ) :
    outcome (notify world base (.obj notice.params)) s =
      outcome (discard (perform world .notify (base.params (notice.shown s.vars).params))) s := by
  have hrecipients : (Json.obj notice.params).fieldOf "recipients" =
    .ok notice.audience.toJson := rfl
  rw [notify, outcome_lift_bind hrecipients, outcome_get_bind, Audience.orElse_toJson,
    outcome_lift_bind (Audience.rendered_toJson ..), outcome_rendered_bind, outcome_rendered_bind]
  rfl

/-- The instruction of a notification has the rendered notice given, and the run goes on. -/
theorem outcome_execute_notify (world : World σ) (base : Base) (contact statuses : Json)
    {i : Instruction} {notice : NoticePlan} (hi : i.operation = .work (.notify notice))
    (s : RunState σ) :
    outcome (execute world base contact statuses i.toJson) s =
      outcome (do
        discard (perform world .notify (base.params (notice.shown s.vars).params))
        pure false) s := by
  have hconfig : (i.toJson.field "config").orElse (.obj []) = .obj notice.params := by
    rw [i.field_config, hi]
    rfl
  have hword : i.operation.word = "notification" := by rw [hi]; rfl
  rw [execute, outcome_lift_bind i.fieldOf_type, hconfig, hword]
  show outcome (notify world base (.obj notice.params) >>= fun _ => pure false) s = _
  rw [outcome_bind, outcome_bind, outcome_notify]

end Run

-- ============================================================================
-- What is carried out
-- ============================================================================

namespace Store

/-- The work of giving a notice tells the members that it is for. -/
theorem transact_notify {t : Session} {org : String} (execution : String) (ht : t.NoticesUnused)
    (h : t.working.RolesReadable org) (notice : NoticePlan) :
    ∃ t' notices,
      transact (Activities.perform .notify
          ((Run.Base.mk (.text execution) (.text org)).params notice.params)) t =
        (.ok (.obj [("notified", .texts (t.working.reached org notice.audience))]), t') ∧
      t'.working = { t.working with notices := t.working.notices ++ notices } ∧
      t'.committed = t'.working ∧
      notices.map Notice.user = t.working.reached org notice.audience ∧
      ∀ n ∈ notices,
        n = noticeFor org execution notice.title notice.message t.now.bare n.id n.user := by
  obtain ⟨t', notices, htold, hworking, -, husers, hall⟩ :=
    result_tellRecipients execution notice.title notice.message ht h notice.audience
  refine ⟨{ t' with committed := t'.working }, notices, transact_of_ok ?_, hworking, rfl, husers,
    hall⟩
  -- The organization is among the parameters.
  have horg : result (Activities.required
      ((Run.Base.mk (.text execution) (.text org)).params notice.params) "org_id") t =
        (.ok (.text org), t) := rfl
  rw [Activities.perform, Activities.notify, result_bind_of_ok horg]
  show result (tellRecipients (.text org) (notice.audience.toJson.orElse (.obj []))
    (.text notice.title)
    (.text notice.message) (.text execution) >>= _) t = _
  rw [Audience.orElse_toJson, result_bind_of_ok htold]
  rfl

end Store

/-- The world carries out the work that is asked for at once, in a session of its own, and leaves
the store alone while messages come in. -/
structure World.CarriesOut {σ : Type} (world : World σ) (store : σ → Session) : Prop where
  perform : ∀ call outside,
    ((world.perform call outside).1, store (world.perform call outside).2) =
      transact (Activities.perform call.activity call.params) (store outside)
  arrive : ∀ outside, store (world.arrive outside).2 = store outside

namespace Run

variable {σ : Type} {world : World σ} {store : σ → Session}

/-- Work that the store does well leaves what it leaves of the store. -/
theorem exists_outcome_perform (hworld : world.CarriesOut store) {activity : Activity}
    {params : Fields}
    {s : RunState σ} {answer : Json} {t : Session}
    (h : transact (Activities.perform activity params) (store s.outside) = (.ok answer, t)) :
    ∃ s', outcome (perform world activity params) s = (.ok answer, s') ∧ store s'.outside = t := by
  obtain ⟨hanswer, hleft⟩ := Prod.mk.inj ((hworld.perform ⟨activity, params⟩ s.outside).trans h)
  rw [outcome_perform, hanswer]
  exact ⟨_, rfl, (hworld.arrive _).trans hleft⟩

end Run

-- ============================================================================
-- Notifications of a definition
-- ============================================================================

namespace Definition

variable {d : Definition} {p : Program}

/-- Whom an action's notice is for: the recipients as they are written down, each text resolved and
rendered. -/
def audience? (d : Definition) (action : Action) (vars : Variables) : Option Audience :=
  match action.config.value "recipients" with
  | .object recipients =>
    Audience.written (fun s => Template.render (Template.resolved (Template.keysOf d.vars) s) vars)
      recipients
  | _ => none

/-- A text of an action as a run shows it. -/
def renderedText (d : Definition) (action : Action) (name : String) (vars : Variables) : String :=
  Template.render (d.resolvedText action name) vars

/-- Every notification of a definition that compiles has an instruction, and wherever the run comes
to it, the members that the rendered recipients are for are told, once each and in their order, and
nobody else. Recipients that are rendered as blank are told nothing. -/
theorem notice_reaches_audience (h : d.compile = .ok p) {action : Action}
    (haction : action ∈ d.actions)
    (hkind : action.kind = "notification") :
    (∃ i, d.Authors p action i) ∧
    ∀ i, d.Authors p action i →
      ∀ {σ : Type} (world : World σ) (store : σ → Session), world.CarriesOut store →
      ∀ (execution org : String) (contact statuses : Json) (s : RunState σ),
        (store s.outside).NoticesUnused → (store s.outside).working.RolesReadable org →
        ∃ audience s' notices, d.audience? action s.vars = some audience ∧
          Run.outcome (Run.execute world ⟨.text execution, .text org⟩ contact statuses i.toJson) s =
            (.ok false, s') ∧
          (store s'.outside).committed =
            { (store s.outside).working with
              notices := (store s.outside).working.notices ++ notices } ∧
          notices.map Notice.user = (store s.outside).working.reached org audience ∧
          (notices.map Notice.user).Nodup ∧
          (∀ n ∈ notices, n = noticeFor org execution (d.renderedText action "title" s.vars)
            (d.renderedText action "message" s.vars) (store s.outside).now.bare n.id n.user) ∧
          (audience.Blank → notices = []) := by
  -- The notification has an author; what follows is about any instruction of that author.
  refine ⟨exists_authored h haction, ?_⟩
  intro i hauthors σ world store hworld execution org contact statuses s hunused hroles
  -- The instruction notifies the audience that the action names, with its texts.
  obtain ⟨recipients, audience, hvalue, hwritten, hoperation⟩ := notify_of_authors h hauthors hkind
  -- The activity writes the notices, and the run lets it.
  obtain ⟨t', notices, htold, hworking, hcommitted, husers, hall⟩ :=
    transact_notify execution hunused
    hroles
    (NoticePlan.shown ⟨audience, d.resolvedText action "title",
      d.resolvedText action "message"⟩ s.vars)
  obtain ⟨s', hperformed, hleft⟩ := Run.exists_outcome_perform hworld htold
  refine ⟨audience.map fun text => Template.render text s.vars, s', notices, ?_, ?_, ?_, husers, ?_,
    hall, fun hblank => ?_⟩
  -- What is rendered at the end is the audience of the definition for these variables.
  · rw [audience?, hvalue]
    refine (Audience.written_comp (Template.resolved (Template.keysOf d.vars))
      (fun text => Template.render text s.vars) recipients).trans ?_
    rw [hwritten, Option.map_some]
  · rw [Run.outcome_execute_notify _ _ _ _ hoperation, Run.outcome_bind, Run.outcome_discard,
      hperformed]
    rfl
  · rw [hleft, hcommitted, hworking]
  · rw [husers]
    exact Records.nodup_reached ..
  · rw [← List.map_eq_nil_iff (f := Notice.user), husers]
    exact Records.reached_of_blank hblank _ _

/-- The owner of a contact, whose address is among the contact's fields, is to be told. -/
def greeting : Action :=
  ⟨"greeting", "notification", ⟨[
    ("recipients", .obj [("type", .text "user"), ("userId", .text "var-contact.owner")]),
    ("message", .text "Welcome var-contact.name")]⟩⟩

/-- A definition that does nothing but this. -/
def welcoming : Definition where
  id := "welcoming"
  name := "Welcoming"
  description := none
  trigger := ⟨.manual, none⟩
  contactRequired := true
  statuses := [⟨"open", "Open", .whole 1, none⟩]
  vars := []
  phases := []
  steps := [.standard ⟨"welcome", "Welcome", none⟩ [greeting] ⟨"automatic", .empty⟩]

/-- The world that is nothing but the store. -/
def desk : World Session where
  perform call s := transact (Activities.perform call.activity call.params) s
  deliver s := ([], s)

/-- Two members of an organization, one of them kept twice. -/
def household : Records where
  members :=
    let member (id user email : String) : Membership :=
      ⟨id, "acme", user, email, some "member", .null, ⟨⟨2024, 5, 17⟩, 12, 0, 0, 0, none⟩⟩
    [member "m1" "ann" "Ann@x.io", member "m2" "bob" "bob@x.io", member "m3" "ann" "ann@x.io"]

/-- A run that knows the contact's owner, among these members. -/
def owned (owner : String) : RunState Session :=
  { RunState.fresh { Store.opened ⟨⟨2024, 5, 17⟩, 12, 0, 0, 0, none⟩ with
      working := household, committed := household } with
    vars := ⟨[("contact.owner", .text owner)]⟩ }

/-- The owner is told once, and nobody is if there is no owner. -/
theorem notice_reaches_owner : ∃ p i, welcoming.compile = .ok p ∧ welcoming.Authors p greeting i ∧
    (∃ s' notices,
      Run.outcome (Run.execute desk ⟨.text "e1", .text "acme"⟩ .null .null i.toJson)
        (owned " ANN@X.io") = (.ok false, s') ∧
      s'.outside.committed = { household with notices := notices } ∧
      notices.map Notice.user = ["ann"]) ∧
    ∃ s',
      Run.outcome (Run.execute desk ⟨.text "e1", .text "acme"⟩ .null .null i.toJson) (owned "  ") =
        (.ok false, s') ∧
      s'.outside.committed = household := by
  obtain ⟨plan, -, hcompile⟩ := compile_of_issues_eq_nil (d := welcoming) (by decide)
  have hdesk : desk.CarriesOut (fun s => s) := ⟨fun _ _ => rfl, fun _ => rfl⟩
  have hunused : ∀ owner, (owned owner).outside.NoticesUnused := by
    intro owner n _ notice hnotice
    cases hnotice
  have hroles : household.RolesReadable "acme" := by
    intro m hm _
    simp only [household, List.mem_cons, List.not_mem_nil, or_false] at hm
    rcases hm with rfl | rfl | rfl <;> exact ⟨[], rfl⟩
  have hgreeting : greeting ∈ welcoming.actions := List.mem_cons_self
  obtain ⟨⟨i, hauthors⟩, hreaches⟩ := notice_reaches_audience hcompile hgreeting rfl
  refine ⟨_, i, hcompile, hauthors, ?_, ?_⟩
  -- The owner is named with blanks and in capitals, and is found by the mail.
  · obtain ⟨audience, s', notices, haudience, hrun, hcommitted, husers, -⟩ :=
      hreaches i hauthors desk _ hdesk "e1" "acme" .null .null (owned " ANN@X.io")
        (hunused _) hroles
    have hknown : welcoming.audience? greeting (owned " ANN@X.io").vars =
        some (.user " ANN@X.io") := by
      with_unfolding_all exact rfl
    rw [hknown, Option.some.injEq] at haudience
    subst haudience
    have horder : household.membersOf "acme" = household.members :=
      List.mergeSort_of_pairwise (by decide)
    have hreached : household.reached "acme" (.user " ANN@X.io") = ["ann"] := by
      rw [Records.reached, horder]
      decide +kernel
    exact ⟨s', notices, hrun, hcommitted, husers.trans hreached⟩
  -- A blank owner is nobody.
  · obtain ⟨audience, s', notices, haudience, hrun, hcommitted, -, -, -, hblank⟩ :=
      hreaches i hauthors desk _ hdesk "e1" "acme" .null .null (owned "  ") (hunused _) hroles
    have hknown : welcoming.audience? greeting (owned "  ").vars = some (.user "  ") := by
      with_unfolding_all exact rfl
    rw [hknown, Option.some.injEq] at haudience
    subst haudience
    have hnone : notices = [] := hblank (show Text.isBlankText "  " from by decide)
    rw [hnone] at hcommitted
    exact ⟨s', hrun, hcommitted⟩

end Definition
end Casework
