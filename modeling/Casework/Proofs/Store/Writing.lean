/-
  Casework.Proofs.Store.Writing

  What is done in sessions is done by writes. Each act of the store writes for the organization that
  it is told, and looks up what it changes there. Operations on tasks give a task only such
  statuses, priorities and titles as tasks can have: what they ask for was checked before. From this
  it follows what attempts to start executions write, and what the work that runs ask for does.
-/
import Casework.Proofs.Store.Confined
import Casework.Proofs.Store.Written
import Casework.Proofs.Task.Creation
import Casework.Proofs.Task.Entitlement

namespace Casework

open Store Result

variable {orgs : String → Prop} {org : String}

-- ============================================================================
-- Records other than tasks
-- ============================================================================

namespace Store

/-- Whichever organization a document names is one of these. -/
def Names (orgs : String → Prop) (org : Json) : Prop :=
  ∀ name, Column.text org = .ok (some name) → orgs name

/-- A text names the organization that it is. -/
theorem names_text (horg : orgs org) : Names orgs (.text org) := by
  intro name hname
  cases hname
  exact horg

/-- The audit trail is kept or dropped, and nothing else is. -/
theorem advances_record {R : Progress}
    (haudit : ∀ records (e : AuditEntry), e.org = org →
      R.rel records { records with audit := records.audit ++ [e] })
    (user : Option String) (entityKind entity action : String) (details : Json) :
    Advances R (record org user entityKind entity action details) :=
  .tryCatch (moves_addAudit org haudit user entityKind entity action details).advances
    fun _ => .rollback

/-- An entry of the trail is written to its organization. -/
theorem writes_record (horg : orgs org) (user : Option String) (entityKind entity action : String)
    (details : Json) :
    Advances (writing orgs) (record org user entityKind entity action details) :=
  advances_record (fun _ _ he => writing_of_written horg (.audit he)) _ _ _ _ _

theorem writes_tellAssigned {org : Json} (horg : Names orgs org) (user : Json) (task title : String)
    (assignedBy : Option String) :
    Moves (writing orgs) (tellAssigned org user task title assignedBy) :=
  moves_tellAssigned (fun _ _ hnotice => writing_of_written (horg _ hnotice) (.notices rfl)) _ _ _ _

theorem writes_tellRecipients {org : Json} (horg : Names orgs org)
    (recipients title message execution : Json) :
    Moves (writing orgs) (tellRecipients org recipients title message execution) :=
  moves_tellRecipients (fun _ _ hnotice =>
    writing_of_written (horg _ hnotice) (.notices rfl)) _ _ _ _

/-- To update a contact writes to its organization. -/
theorem writes_updateContact (horg : orgs org) (id : String) (payload : Fields) :
    Moves (writing orgs) (updateContact id org payload) := by
  refine .find?_bind (.pure _) fun c hc => .bind (.lift _) fun values =>
    .bind (.liftColumn _) fun kept =>
    .bind .now fun moment => .bind (.change fun records => ?_) fun _ => .pure _
  exact writing_of_written horg (.contacts (.changed (fun _ _ => hc) fun _ _ => trivial))

/-- To submit senders writes to the organization. -/
theorem writes_setSenders (horg : orgs org) (submitted : Json) :
    Moves (writing orgs) (setSenders org submitted) := by
  have hlist : Moves (writing orgs) (senderList? (.text org)) :=
    .bind (.lift _) fun _ => .bind (.liftColumn _) fun found => by
      cases found with
      | none => exact .pure _
      | some _ => exact .map _ (.select _)
  -- There is one list for each organization, whose id is the organization.
  have hisOf : (fun l : SenderList => l.org == org) = Record.isOf org org := by
    funext l
    exact (Bool.and_self _).symm
  unfold setSenders
  split
  · exact .throw _
  · refine .bind .bareNow fun moment => .bind hlist fun kept => ?_
    cases kept with
    | none =>
      refine .bind (.add _ fun records hnew => ?_) fun _ => .pure _
      exact writing_of_written horg (.senders (.added rfl hnew))
    | some kept =>
      dsimp only
      split
      · exact .pure _
      · rw [hisOf]
        refine .bind (.change fun records => ?_) fun _ => .pure _
        exact writing_of_written horg (.senders (.changed (fun _ h => h) fun _ _ => trivial))

theorem writes_createDefinition (horg : orgs org) (payload : Fields) :
    Moves (writing orgs) (createDefinition (.text org) payload) := by
  refine .bind (.identify _ _) fun id => .bind .bareNow fun moment =>
    .liftColumn_bind fun r hr => .bind (.add r fun records _ => ?_) fun _ => .pure _
  exact writing_of_written horg (.definitions (keys_of_definition hr).2)

theorem writes_nameRun (horg : orgs org) (id workflow : String) (run : Option String) :
    Moves (writing orgs) (nameRun id org workflow run) := by
  refine .bind .bareNow fun moment => .change fun records => ?_
  exact writing_of_written horg (.executions (.changed (fun _ h => h) fun _ _ => rfl))

/-- To report about an execution writes to its organization. -/
theorem writes_reportExecution {org : Json} (horg : Names orgs org) (id : Json)
    (r : Execution.Report) : Moves (writing orgs) (reportExecution id org r) := by
  refine moves_reportExecution _ _ _ fun records moment e e' hnamed hfound happly => ?_
  obtain ⟨hid, heorg, -⟩ := Execution.Report.fields_of_apply happly
  refine writing_of_written (horg _ hnamed) ?_
  rw [hid, heorg]
  refine .executions (.changed (fun _ _ => Record.isOf_iff.2 ⟨hid, heorg⟩) fun x hx => ?_)
  rw [hfound] at hx
  cases hx
  exact Execution.Report.steps_of_apply happly

-- ============================================================================
-- Tasks
-- ============================================================================

theorem writes_createTask {org : Json} (horg : Names orgs org) (d : TaskDraft) :
    Moves (writing orgs) (createTask org d) := by
  refine .bind (.identify _ _) fun id => .bind .bareNow fun moment =>
    .liftColumn_bind fun t ht => .bind (.add t fun records hnew => ?_) fun _ => .pure _
  exact writing_of_written (horg _ (TaskDraft.yields_of_task ht).org) (.tasks (.added rfl hnew))

end Store

namespace Task

/-- A conditional write gives a task no status but one that tasks can have. -/
def Write.Proper : Write → Prop
  | .setOpen status => status ∈ statuses
  | _ => True

/-- A proper write makes of a task what it may become. -/
theorem Write.becomes {w : Write} (h : w.Proper) (moment : Moment) (t : Task) :
    t.Becomes (w.apply moment t) := by
  have hdone : done ∈ statuses := by decide
  cases w with
  | claim user => exact ⟨rfl, rfl, rfl, .inl rfl, .inl rfl, .inl rfl⟩
  | complete => exact ⟨rfl, rfl, rfl, .inr hdone, .inl rfl, .inl rfl⟩
  | decide outcome comment => exact ⟨rfl, rfl, rfl, .inr hdone, .inl rfl, .inl rfl⟩
  | setOpen status => exact ⟨rfl, rfl, rfl, .inr h, .inl rfl, .inl rfl⟩

/-- What is not refused gives a task no priority and no title but such as tasks can have. -/
theorem Changes.proper_of_refusal {given : Fields} (h : Lifecycle.Changes.refusal? given = none) :
    (∀ value, given.get? "priority" = some value → ∃ priority ∈ priorities,
      value = .text priority) ∧
      ∀ value, given.get? "title" = some value → ∃ title, value = .text title ∧
        Text.trim title ≠ "" := by
  -- A title is a text, and not blank.
  have htitle : ∀ title : Option Json, Lifecycle.Changes.refusal?.titleRefusal? title = none →
      ∀ value, title = some value → ∃ s, value = .text s ∧ Text.trim s ≠ "" := by
    rintro _ hnone value rfl
    rw [Lifecycle.Changes.refusal?.titleRefusal?] at hnone
    split at hnone
    case isTrue => cases hnone
    case isFalse hblank =>
      cases value with
      | text s => exact ⟨s, rfl, by simpa [Json.text?] using hblank⟩
      | _ => exact absurd rfl hblank
  unfold Lifecycle.Changes.refusal? at h
  extract_lets unknown at h
  split at h
  case isTrue => cases h
  case isFalse =>
    split at h
    case isTrue => cases h
    case isFalse =>
      split at h
      case h_2 hnone => exact ⟨fun value hvalue => by simp [hnone] at hvalue, htitle _ h⟩
      -- A priority is one of those that are known.
      case h_1 _ _ priority hpriority =>
        split at h
        case isFalse => cases h
        case isTrue hmem =>
          refine ⟨fun value hvalue => ?_, htitle _ h⟩
          rw [hpriority] at hvalue
          cases hvalue
          cases priority with
          | text s => exact ⟨s, by simpa [Json.text?] using hmem, rfl⟩
          | _ => cases hmem

/-- Changes that are not refused make of a task what may become of it. -/
theorem Changes.becomes {given : Fields} {c : Changes}
    (hrefusal : Lifecycle.Changes.refusal? given = none) (h : ofFields given = .ok c)
    (moment : Moment)
    (t : Task) : t.Becomes (c.apply moment t).bare := by
  obtain ⟨hpriorities, htitles⟩ := proper_of_refusal hrefusal
  obtain ⟨_, -, h⟩ := bind_eq_ok_iff.1 h
  have h := Failure.ofStore_eq_ok h
  -- Of all columns only those of the priority and the title matter here.
  iterate 2 obtain ⟨_, -, h⟩ := bind_eq_ok_iff.1 h
  obtain ⟨title?, htitle, h⟩ := bind_eq_ok_iff.1 h
  obtain ⟨_, -, h⟩ := bind_eq_ok_iff.1 h
  obtain ⟨priority?, hpriority, h⟩ := bind_eq_ok_iff.1 h
  obtain ⟨title, htitleTaken, h⟩ := bind_eq_ok_iff.1 h
  obtain ⟨priority, hpriorityTaken, h⟩ := bind_eq_ok_iff.1 h
  cases h
  rw [column] at htitle hpriority
  refine ⟨rfl, rfl, rfl, .inl rfl, ?_, ?_⟩
  -- The priority: as it was, or one of the known ones.
  · cases hvalue : given.get? "priority" with
    | none =>
      rw [hvalue] at hpriority
      cases hpriority
      cases hpriorityTaken
      exact .inl rfl
    | some value =>
      obtain ⟨s, hs, rfl⟩ := hpriorities value hvalue
      rw [hvalue] at hpriority
      cases hpriority
      cases hpriorityTaken
      exact .inr hs
  -- The title: as it was, or not blank.
  · cases hvalue : given.get? "title" with
    | none =>
      rw [hvalue] at htitle
      cases htitle
      cases htitleTaken
      exact .inl rfl
    | some value =>
      obtain ⟨s, rfl, hs⟩ := htitles value hvalue
      rw [hvalue] at htitle
      cases htitle
      cases htitleTaken
      exact .inr hs

/-- A request asks for no write but one of what tasks can have. -/
def Request.Proper : Request → Prop
  | .write w => w.Proper
  | .update given => Lifecycle.Changes.refusal? given = none
  | _ => True

/-- A request that spares the rows is proper. -/
theorem Request.proper_of_spares (r : Request) (h : r.Spares) : r.Proper := by
  cases r with
  | write w => exact h.elim
  | update given => exact h.elim
  | _ => trivial

end Task

namespace Store

theorem writes_writeTask (horg : orgs org) {w : Task.Write} (hw : w.Proper) (id : String) :
    Moves (writing orgs) (writeTask w id org) := by
  intro s
  rw [result_writeTask]
  cases s.task? id org with
  | none => exact .refl _ s
  | some t =>
    dsimp only
    split
    · refine ⟨writing_of_written horg (.tasks ?_), rfl, rfl⟩
      exact .changed (fun r hr => w.isOf_apply s.now.bare hr) fun r _ => Task.Write.becomes hw _ r
    · exact .refl _ s

/-- To update a task by changes that are not refused writes to its organization. -/
theorem writes_updateTask (horg : orgs org) {given : Fields}
    (hgiven : Task.Lifecycle.Changes.refusal? given = none) (id : String) :
    Moves (writing orgs) (updateTask id org given) := by
  intro s
  rw [result_updateTask]
  cases ht : s.task? id org with
  | none => exact .refl _ s
  | some t =>
    dsimp only
    cases hchanges : Task.Changes.ofFields given with
    | error f => exact .refl _ s
    | ok c =>
      have hof : Record.isOf id org t := List.find?_some ht
      refine ⟨writing_of_written horg (.tasks (.changed (fun _ _ => hof) fun r hr => ?_)), rfl, rfl⟩
      have hsame : some r = some t := hr.symm.trans ht
      cases hsame
      exact Task.Changes.becomes hgiven hchanges _ _

end Store

-- ============================================================================
-- Operations on tasks
-- ============================================================================

namespace Task

open Dialogue

/-- A claim asks for proper writes only. -/
theorem proper_claim (actor : AccessContext) : (Lifecycle.claim actor).Only Request.Proper := by
  refine .load trivial fun t => .require fun _ => .require fun _ => .require fun _ =>
    .request trivial fun claimed => ?_
  cases claimed with
  | none => exact .request trivial fun _ => .require fun _ => .request trivial fun _ => trivial
  | some t' => exact .request trivial fun _ => .request trivial fun _ => trivial

/-- An edit asks for proper writes only, since changes that are refused are not made. -/
theorem proper_mutate (actor : AccessContext) (given : Fields) :
    (Lifecycle.mutate actor given).Only Request.Proper := by
  unfold Lifecycle.mutate
  extract_lets edit
  split
  case h_1 => trivial
  -- The changes are not refused; an entry of the trail is all that follows.
  case h_2 hrefusal =>
    have hnone := Option.eq_none_iff_forall_ne_some.2 hrefusal
    refine .load trivial fun t => .require fun _ => .request hnone fun updated => ?_
    cases updated with
    | none => trivial
    | some t' =>
      refine .request trivial fun _ => ?_
      extract_lets record
      have hrecord : ∀ u, (record u).Only Request.Proper :=
        fun _ => .request trivial fun _ => trivial
      split
      · exact .request trivial hrecord
      · exact hrecord ()

theorem proper_setStatus (actor : AccessContext) (id : String) (status : Json) :
    (Lifecycle.setStatus actor id status).Only Request.Proper := by
  refine .require fun hstatus => .load trivial fun t => .require fun _ => .require fun _ => ?_
  split
  · exact only_finish Request.proper_of_spares trivial
  · exact .require fun _ => only_reopen Request.proper_of_spares (List.contains_iff_mem.1 hstatus)

/-- A decision asks for proper writes only. -/
theorem proper_conclude (decision : Lifecycle.Decision) (actor : AccessContext) (id : String)
    (comment : Json) : (Lifecycle.conclude decision actor id comment).Only Request.Proper :=
  .lift fun _ => .load trivial fun t => .require fun _ => .require fun _ => .require fun _ =>
    .bind (only_executionOf (fun r hr => Request.proper_of_spares r hr.spares) t) fun _ =>
      .lift fun _ => .require fun _ => only_settle Request.proper_of_spares trivial

/-- Every operation checks what it writes before it asks for it. -/
theorem Order.proper (o : Order) : o.dialogue.Only Request.Proper := by
  unfold dialogue
  split
  · exact proper_claim _
  · exact proper_mutate _ _
  · exact proper_setStatus _ _ _
  · exact proper_conclude _ _ _ _

/-- What every answer that a dialogue can ask for makes progress by is progress for the dialogue. -/
theorem Dialogue.Only.advances {α : Type} {R : Progress} {p : Request → Prop}
    {answer : (r : Request) → Tx r.Answer} (hanswer : ∀ r, p r → Advances R (answer r))
    {x : Dialogue α} (h : x.Only p) : Advances R (x.run answer) := by
  induction x with
  | done a => exact .pure a
  | fail f => exact .throw f
  | ask r next ih => exact .bind (hanswer r h.1) fun a => ih a (h.2 a)

/-- What an operation asks for is written to the organization of the actor. -/
theorem writes_answer {actor : AccessContext} (horg : orgs actor.org) (reach : Reach) (id : String)
    {r : Request} (hr : r.Proper) : Advances (writing orgs) (answer reach id actor r) := by
  have hfind : Moves (writing orgs) (Store.task? id actor.org) :=
    .of_records_eq fun _ => ⟨rfl, rfl, rfl⟩
  cases r with
  | read => exact hfind.advances
  | isThere => exact (hfind.map _).advances
  | write w => exact (writes_writeTask horg hr id).advances
  | update given => exact (writes_updateTask horg hr id).advances
  | commit => exact .commit
  | execution execution => exact (Moves.of_records_eq fun _ => ⟨rfl, rfl, rfl⟩).advances
  | signal workflow m => exact .ite (.bind (.ask _) fun _ => .pure _) (.pure _)
  | tell user title =>
    refine .ite (.tryCatch ?_ fun _ => .pure _) (.pure _)
    exact (writes_tellAssigned (names_text horg) _ _ _ _).advances
  | log action details => exact .ite (writes_record horg _ _ _ _ _) (.pure _)

/-- An operation writes for the organization of its actor. -/
theorem Order.writes (o : Order) (horg : orgs o.actor.org) :
    Advances (writing orgs) (o.dialogue.run (Task.answer o.reach o.task o.actor)) :=
  o.proper.advances fun _ hr => writes_answer horg _ _ hr

end Task

-- ============================================================================
-- Executions
-- ============================================================================

namespace Trigger

variable {definition : String} {actor : AccessContext} {contact : Option String}

/-- To keep an execution writes to the organization of the actor. -/
theorem writes_keep (horg : orgs actor.org) :
    Advances (writing orgs) (keep definition actor contact) := by
  -- To look for a contact writes nothing.
  have hcontact : ∀ d, Moves (writing orgs) (contactFor d actor.org contact) := by
    intro d
    refine .of_records_eq fun s => ?_
    rw [contactFor_reads]
    exact ⟨rfl, rfl, rfl⟩
  -- The new execution is one of the organization.
  have hcreate : ∀ r c, Moves (writing orgs)
      (createExecution (.text actor.org) (draft r actor c)) := by
    intro r c
    refine .bind (.identify _ _) fun id => .bind .bareNow fun moment => .liftColumn_bind fun e he =>
      .bind (.add e fun records hnew => ?_) fun _ => .pure _
    exact writing_of_written horg (.executions (.added (fields_of_draft rfl he).1 hnew))
  have henter : Moves (writing orgs) (enter definition actor contact) :=
    .bind (moves_prepare _ _) fun r => .bind (hcontact _) fun c =>
      .bind (hcreate r c) fun _ => .pure _
  exact .bind henter.advances fun _ => .bind .commit fun _ =>
    .bind (.holding (writes_record horg _ _ _ _ _)) fun _ => .pure _

/-- To start a run writes to the organization of the execution. -/
theorem writes_start {k : Kept} (hk : k.execution.org = actor.org) (horg : orgs actor.org) :
    Advances (writing orgs) (start actor k) := by
  refine .bind (.ask _) fun answer => ?_
  cases answer with
  | error error =>
    have hreport : ∀ r, Moves (writing orgs)
        (reportExecution (.text k.execution.id) (.text k.execution.org) r) :=
      fun r => writes_reportExecution (names_text (hk ▸ horg)) _ r
    exact .bind (.bind ((hreport _).map _).advances fun _ => .commit) fun _ => .throw _
  | ok _ =>
    exact .bind (writes_nameRun horg _ _ _).advances fun _ => .bind .commit fun _ =>
      .bind Moves.now.advances fun _ => .pure _

/-- An attempt to start an execution writes for the organization of its actor. -/
theorem writes_trigger (horg : orgs actor.org) :
    Advances (writing orgs) (trigger definition actor contact) := by
  rw [trigger_eq]
  refine .bind_knowing (writes_keep horg) (fun k => k.execution.org = actor.org)
    (fun s k s' hkeep => ?_) fun k hk => writes_start hk horg
  rcases keep_cases definition actor contact s with ⟨f, _, hfails, -⟩ | ⟨_, _, hkept, hfollows, -⟩
  · rw [hfails] at hkeep
    cases hkeep
  · rw [hkept] at hkeep
    cases hkeep
    exact hfollows.org

end Trigger

-- ============================================================================
-- Work for runs
-- ============================================================================

namespace Activities

variable {params : Fields}

/-- The rest of the work knows that a parameter that must be there is there. -/
theorem moves_required_bind {α : Type} {R : Progress} {name : String} {next : Json → Tx α}
    (h : Moves R (next (params.value name))) : Moves R (required params name >>= next) := by
  rw [required]
  cases hvalue : (Json.object params).requiredField name with
  | error fault => exact .throw_bind _ _
  | ok value =>
    rw [← Json.value_of_requiredField hvalue]
    exact h

theorem writes_setState (horg : Names orgs (params.value "org_id")) :
    Moves (writing orgs) (setState params) := by
  refine moves_required_bind (moves_required_bind
    (.bind (writes_reportExecution horg _ _) fun found => ?_))
  cases found with
  | none => exact .throw _
  | some e => exact .pure _

theorem writes_notify (horg : Names orgs (params.value "org_id")) :
    Moves (writing orgs) (notify params) :=
  moves_required_bind (.bind (writes_tellRecipients horg _ _ _ _) fun _ => .pure _)

theorem moves_sendMail {R : Progress} : Moves R (sendMail params) := by
  refine .bind (.liftFault _) fun recipient => ?_
  extract_lets rest
  have hrest : ∀ u, Moves R (rest u) := by
    refine fun _ => .bind (.liftFault _) fun sender => ?_
    extract_lets done
    refine .ite (moves_required_bind (.bind (moves_sendersOf _) fun allowed => ?_)) (.pure _)
    exact .ite (.throw_bind _ _) (.pure _)
  exact .ite (.throw_bind _ _) (hrest ())

theorem writes_createTask (horg : Names orgs (params.value "org_id")) :
    Moves (writing orgs) (createTask params) := by
  refine .bind (.liftFault _) fun config => .bind (.liftFault _) fun assignment =>
    .bind (Task.moves_dueAfter _) fun due => moves_required_bind ?_
  exact .bind (Store.writes_createTask horg _) fun t =>
    .ite (.bind (writes_tellAssigned horg _ _ _ _) fun _ => .pure _) (.pure _)

/-- What runs ask for writes for the organization that the parameters name. -/
theorem writes_perform (a : Activity) (horg : Names orgs (params.value "org_id")) :
    Moves (writing orgs) (perform a params) := by
  cases a with
  | createTask => exact writes_createTask horg
  | setState => exact writes_setState horg
  | sendMail => exact moves_sendMail
  | notify => exact writes_notify horg

end Activities
end Casework
