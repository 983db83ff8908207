/-
  Casework.Proofs.Web.Trail

  What is left of a request when its entry of the audit trail is not taken. All that is not yet
  committed is dropped with the entry, and what was read before is no longer at hand, so that the
  request comes to its end there: what it has committed by then is left. An operation has committed
  the task that it has written, but not the notice about it; a change of a contact has committed
  nothing; and a start has committed an execution, but has not yet asked the engine to run it.
-/
import Casework.Proofs.Execution.Attempt
import Casework.Proofs.Web.Refusal

namespace Casework

open Store

-- ============================================================================
-- What is left
-- ============================================================================

/-- An execution is said to be running, but was never started. -/
structure Execution.Stranded (e : Execution) : Prop where
  state : e.state = RunPhase.running.word
  workflow : e.workflow = none
  run : e.run = none

namespace Records

/-- The records, with the audit trail, notices and contacts as they were before. -/
def losing (before r : Records) : Records :=
  { r with audit := before.audit, notices := before.notices, contacts := before.contacts }

/-- Nothing is lost where there is nothing to lose. -/
theorem losing_eq_self {before r : Records}
    (h : { r with tasks := [] } = { before with tasks := [] }) :
    before.losing r = r := by
  cases r
  cases before
  cases h
  rfl

/-- What is left of a request, against what it would have left in full, if an entry of the audit
trail is not taken: all of it, or all but entries, notices and changes of contacts, or a new
execution that is stranded, where it would have been given a run or marked as failed. -/
inductive Remains (before full : Records) : Records → Prop where
  | all : Remains before full full
  | committed : Remains before full (before.losing full)
  | stranded {e e' : Execution} {moment : Moment}
    (added : full.executions = before.executions ++ [e']) (stranded : e.Stranded)
    (started : e' = Trigger.named e moment ∨ ∃ d error, e' = Trigger.failed d e error moment) :
    Remains before full { full with audit := before.audit, executions := before.executions ++ [e] }

end Records

/-- The session with a trail that takes no entries, or takes them. -/
abbrev Session.refusing (refuses : Bool) : Session → Session := amid id refuses

namespace Store

variable {α β : Type} {s : Session} {act : Tx α}

/-- It makes no difference to an act whether the trail takes entries. -/
def Indifferent (s : Session) (act : Tx α) : Prop :=
  ∃ (x : Except Failure α) (s' : Session), ∀ refuses,
    result act (s.refusing refuses) = (x, s'.refusing refuses)

/-- An act comes to its end with an entry that is not taken. What is committed then is what remains
of what the act would have left, be that kept or dropped. -/
structure CutShort (before : Records) (s : Session) (act : Tx α) : Prop where
  stale : (result act (s.refusing true)).1 = .error (.store .expired)
  working : before.Remains (result act (s.refusing false)).2.working
    (result act (s.refusing true)).2.committed
  committed : before.Remains (result act (s.refusing false)).2.committed
    (result act (s.refusing true)).2.committed

/-- If an entry of an act is not taken, the act comes to its end with it. -/
def EndsWithEntry (act : Tx α) : Prop :=
  ∀ s, s.Settled → Indifferent s act ∨ CutShort s.working s act

-- ============================================================================
-- Before an entry
-- ============================================================================

section Before

variable {next : α → Tx β} (h : ∀ refuses, Commutes (Session.refusing refuses) act)

include h

theorem Indifferent.of_commutes (s : Session) : Indifferent s act :=
  ⟨_, _, fun refuses => h refuses s⟩

/-- Work that fails before the entry is done alike with and without it. -/
theorem Indifferent.of_error {f : Failure} (hact : (result act s).1 = .error f) :
    Indifferent s (act >>= next) := by
  refine ⟨.error f, (result act s).2, fun refuses => ?_⟩
  rw [result_bind, h refuses s, hact]

variable {a : α} {s' : Session} (hact : result act s = (.ok a, s'))

include hact

theorem result_bind_refusing (refuses : Bool) :
    result (act >>= next) (s.refusing refuses) = result (next a) (s'.refusing refuses) := by
  rw [result_bind, h refuses s, hact]

/-- Work before the entry may be set aside. -/
theorem Indifferent.after (hnext : Indifferent s' (next a)) : Indifferent s (act >>= next) := by
  obtain ⟨x, s'', hsame⟩ := hnext
  exact ⟨x, s'', fun refuses => (result_bind_refusing h hact refuses).trans (hsame refuses)⟩

/-- Work before a refused entry may be set aside. -/
theorem CutShort.after {before : Records} (hnext : CutShort before s' (next a)) :
    CutShort before s (act >>= next) := by
  have hbind : ∀ refuses, result (act >>= next) (s.refusing refuses) =
      result (next a) (s'.refusing refuses) := result_bind_refusing h hact
  refine ⟨?_, ?_, ?_⟩
  · rw [hbind]
    exact hnext.stale
  · rw [hbind, hbind]
    exact hnext.working
  · rw [hbind, hbind]
    exact hnext.committed

end Before

-- ============================================================================
-- After an entry
-- ============================================================================

/-- What only reads leaves open what is kept of what was done before. -/
theorem CutShort.bind_reads {before : Records} {next : α → Tx β} (h : CutShort before s act)
    (hreads : ∀ a, Reads (next a)) : CutShort before s (act >>= next) := by
  obtain ⟨hstale, hworking, hcommitted⟩ := h
  have hrefused : result (act >>= next) (s.refusing true) =
      (.error (.store .expired), (result act (s.refusing true)).2) := by
    rw [result_bind, ← Prod.eta (result act (s.refusing true)), hstale]
  have hsame : (result (act >>= next) (s.refusing false)).2 =
      (result act (s.refusing false)).2 := by
    rw [result_bind]
    -- What follows the entry only reads, so it leaves the rows as they are.
    rcases result act (s.refusing false) with ⟨f | a, s'⟩
    · rfl
    · exact hreads a s'
  refine ⟨?_, ?_, ?_⟩
  · rw [hrefused]
  · rw [hrefused, hsame]
    exact hworking
  · rw [hrefused, hsame]
    exact hcommitted

namespace EndsWithEntry

theorem of_commutes (h : ∀ refuses, Commutes (Session.refusing refuses) act) : EndsWithEntry act :=
  fun s _ => .inl (.of_commutes h s)

theorem pure (a : α) : EndsWithEntry (pure a : Tx α) := of_commutes fun _ => .pure a

theorem ite {c : Prop} [Decidable c] {other : Tx α} (h : EndsWithEntry act)
    (h' : EndsWithEntry other) : EndsWithEntry (if c then act else other) := by
  split
  · exact h
  · exact h'

/-- Reading before the entry may be set aside. -/
theorem read {next : α → Tx β} (h : ∀ refuses, Commutes (Session.refusing refuses) act)
    (hreads : Reads act) (hnext : ∀ a, EndsWithEntry (next a)) : EndsWithEntry (act >>= next) := by
  intro s hs
  have hsame := hreads s
  rcases hact : result act s with ⟨f | a, s'⟩ <;> rw [hact] at hsame
  · exact .inl (.of_error h (congrArg Prod.fst hact))
  · obtain rfl : s' = s := hsame
    exact (hnext a s' hs).imp (.after h hact) (.after h hact)

/-- Reading after the entry may be set aside. -/
theorem bind_reads {next : α → Tx β} (h : EndsWithEntry act) (hreads : ∀ a, Reads (next a))
    (hnext : ∀ a refuses, Commutes (Session.refusing refuses) (next a)) :
    EndsWithEntry (act >>= next) := by
  intro s hs
  rcases h s hs with ⟨x, s', hsame⟩ | hcut
  · left
    rcases x with f | a
    · exact ⟨.error f, s', fun refuses => by rw [result_bind, hsame]⟩
    · exact ⟨_, _, fun refuses => by rw [result_bind, hsame]; exact hnext a refuses s'⟩
  · exact .inr (hcut.bind_reads hreads)

/-- What remains of a transaction is what its act had committed. -/
theorem transact (h : EndsWithEntry act) (hs : s.Settled) :
    s.working.Remains (transact act (s.refusing false)).2.committed
      (transact act (s.refusing true)).2.committed := by
  rw [transact_eq, transact_eq]
  rcases h s hs with ⟨x, s', hsame⟩ | ⟨hstale, hworking, hcommitted⟩
  · rw [hsame, hsame]
    rcases x with f | a <;> exact .all
  · rw [← Prod.eta (result act (s.refusing true)), hstale]
    rcases hfull : result act (s.refusing false)
      with ⟨f | a, s'⟩ <;> rw [hfull] at hworking hcommitted
    · exact hcommitted
    · exact hworking

end EndsWithEntry

-- ============================================================================
-- Entries
-- ============================================================================

/-- An act asks for an entry in any case. If it is not taken, all that the act would leave otherwise
is lost, unless it is committed by then. -/
structure Logs (before : Records) (s : Session) (act : Tx α) (a : α) (full left : Session) :
    Prop where
  taken : result act (s.refusing false) = (.ok a, full)
  refused : result act (s.refusing true) = (.ok a, left)
  missed : Missed s left = true
  working : left.committed = before.losing full.working
  committed : left.committed = full.committed

/-- An entry for the audit log is either put in or cuts the request short. -/
theorem exists_logs_record (org : String) (user : Option String) (entityKind entity action : String)
    (details : Json) {before : Records} {s : Session} (hs : before.losing s.working = s.committed) :
    ∃ full left, Logs before s (record org user entityKind entity action details) () full left := by
  obtain ⟨working, htaken, hworking⟩ :=
    result_record org user entityKind entity action details (s.refusing false)
  obtain ⟨_, hrefused, -⟩ :=
    result_record org user entityKind entity action details (s.refusing true)
  refine ⟨_, _, htaken, hrefused, ?_, ?_, rfl⟩
  · show (true && (s.handing .audit).ids .audit != s.ids .audit) = true
    rw [Session.ids_handing, Bool.true_and]
    exact bne_iff_ne.2 (Nat.succ_ne_self _)
  · show s.committed = before.losing working
    rcases hworking with rfl | ⟨-, rfl⟩
    · show s.committed = before.losing s.committed
      rw [← hs]
      rfl
    · exact hs.symm

namespace Logs

variable {before : Records} {s' full left : Session} {a : α} {b : β}

/-- What heeds nothing of the trail may come before the entry. -/
theorem after {act : Tx β} {next : β → Tx α} (h : Logs before s' (next b) a full left)
    (hcommutes : ∀ f [Session.Around f], (∀ call, Commutes f (ask call)) → Commutes f act)
    (hact : result act s = (.ok b, s')) : Logs before s (act >>= next) a full left where
  taken := (result_bind_refusing (fun _ => hcommutes _ fun _ _ => rfl) hact false).trans h.taken
  refused := (result_bind_refusing (fun _ => hcommutes _ fun _ _ => rfl) hact true).trans h.refused
  missed := by
    have hids := Commutes.ids_audit_eq (fun n => hcommutes (Session.numbering n) fun _ _ => rfl) s
    rw [hact] at hids
    rw [Missed, ← hids]
    exact h.missed
  working := h.working
  committed := h.committed

/-- After the entry there may be an answer. -/
theorem bind_pure {act : Tx β} (h : Logs before s act b full left) (a : α) :
    Logs before s (act >>= fun _ => pure a) a full left where
  taken := by rw [result_bind, h.taken]; rfl
  refused := by rw [result_bind, h.refused]; rfl
  missed := h.missed
  working := h.working
  committed := h.committed

/-- Who holds on to what was read before an entry comes to an end with it. -/
theorem cutShort (h : Logs before s act a full left) : CutShort before s (holding act) := by
  have hmissed : Missed (s.refusing true) left = true := h.missed
  have hend : result (holding act) (s.refusing true) = (.error (.store .expired), left) := by
    rw [result_holding, h.refused]
    dsimp only
    rw [hmissed]
    rfl
  have hfull : (result (holding act) (s.refusing false)).2 = full := by
    rw [snd_result_holding, h.taken]
  refine ⟨by rw [hend], ?_, ?_⟩
  · rw [hend, hfull, h.working]
    exact .committed
  · rw [hend, hfull, h.committed]
    exact .all

end Logs
end Store

-- ============================================================================
-- Operations on tasks
-- ============================================================================

namespace Task

open Dialogue

variable (id : String) (actor : AccessContext)

section Outward

variable {r : Request} (hr : r.Outward) (hlog : r.logs = false)

include hr hlog

theorem commutes_outward {f : Session → Session} [Session.Around f]
    (hask : ∀ call, Commutes f (Store.ask call)) : Commutes f (answer {} id actor r) := by
  cases r with
  | execution e => exact .map _ (.find? e actor.org)
  | signal workflow m => exact .bind (hask _) fun _ => .pure _
  | tell user title => exact .tryCatch (.tellAssigned _ _ _ _ _) fun _ => .pure _
  | log action details => cases hlog
  | _ => exact hr.elim

/-- What others are told can be lost, and is not committed. -/
theorem losing_outward (before : Records) (s : Session) :
    before.losing (result (answer {} id actor r) s).2.working = before.losing s.working ∧
      (result (answer {} id actor r) s).2.committed = s.committed := by
  cases r with
  | execution e => exact ⟨rfl, rfl⟩
  | signal workflow m => exact ⟨rfl, rfl⟩
  | tell user title =>
    have htold : Moves (.keeping before.losing) (answer {} id actor (.tell user title)) :=
      .tryCatch (moves_tellAssigned (fun _ _ _ => rfl) _ _ _ _) fun _ => .pure _
    exact ⟨(htold s).working, (htold s).committed⟩
  | log action details => cases hlog
  | _ => exact hr.elim

end Outward

/-- What an operation asks for before its entry may heed nothing of the trail. -/
theorem logs_ask {r : Request} {next : r.Answer → Dialogue Transition} {before : Records}
    {s s' full left : Session} {a : r.Answer} {transition : Transition}
    (hcommutes : ∀ f [Session.Around f], (∀ call, Commutes f (Store.ask call)) →
      Commutes f (answer {} id actor r))
    (hanswer : result (answer {} id actor r) s = (.ok a, s'))
    (h : Logs before s' ((next a).run (answer {} id actor)) transition full left) :
    Logs before s ((Dialogue.ask r next).run (answer {} id actor)) transition full left := by
  show Logs before s (answer {} id actor r >>= fun a => (next a).run (answer {} id actor)) _ _ _
  refine .after ?_ hcommutes hanswer
  exact h

/-- Once what an operation has written is committed, all that it does before its entry is lost with
it. -/
theorem exists_logs_of_closes {t : Task} {showable told : Bool} {x : Dialogue Transition}
    (h : x.Closes t showable told false) {before : Records} {s : Session}
    (hs : before.losing s.working = s.committed) :
    ∃ transition full left, Logs before s (x.run (answer {} id actor)) transition full left := by
  induction x generalizing told s with
  | done transition => exact absurd h.2 Bool.false_ne_true
  | fail f => exact h.elim
  | ask r next ih =>
    -- The only entry of the closing is its last request.
    obtain ⟨houtward, -, hnext⟩ := h
    cases hlog : r.logs with
    | false =>
      obtain ⟨hlosing, hcommitted⟩ := losing_outward id actor houtward hlog before s
      obtain ⟨a, ha⟩ := exists_result_answer {} id actor (r := r) (by cases r <;> trivial) s
      have hrest := hnext a
      rw [hlog] at hrest
      obtain ⟨transition, full, left, hlogs⟩ :=
        ih a hrest (hlosing.trans (hs.trans hcommitted.symm))
      exact ⟨transition, full, left, logs_ask id actor
        (fun _ _ hask => commutes_outward id actor houtward hlog hask) (Prod.ext ha rfl) hlogs⟩
    | true =>
      -- The entry is asked for, and the dialogue is done with the answer.
      cases r with
      | log action details =>
        obtain ⟨full, left, hlogs⟩ :=
          exists_logs_record actor.org (some actor.user) "task" id action details hs
        obtain ⟨transition, hdone⟩ := (hnext ()).exists_done
        have hrun : (Dialogue.ask (.log action details) next).run (answer {} id actor) =
            record actor.org (some actor.user) "task" id action details >>=
              fun _ => pure transition :=
          bind_congr fun _ => congrArg (Dialogue.run (answer {} id actor)) hdone
        rw [hrun]
        exact ⟨transition, full, left, hlogs.bind_pure transition⟩
      | _ => cases hlog

/-- Until it has written a task, an operation heeds nothing of the trail; from then on it ends with
an entry. -/
theorem logs_of_opens {x : Dialogue Transition} (h : x.Opens) {s : Session} (hs : s.Settled) :
    (∃ (y : Except Failure Transition) (s' : Session), s'.ids .audit = s.ids .audit ∧ ∀ refuses,
        result (x.run (answer {} id actor)) (s.refusing refuses) = (y, s'.refusing refuses)) ∨
      ∃ transition full left, Logs s.working s
      (x.run (answer {} id actor)) transition full left := by
  induction x with
  | done transition => exact .inl ⟨.ok transition, s, rfl, fun _ => rfl⟩
  | fail f => exact .inl ⟨.error f, s, rfl, fun _ => rfl⟩
  | ask r next ih =>
    obtain ⟨hinward, hnext⟩ := h
    have hcommutes : ∀ f [Session.Around f], Commutes f (answer {} id actor r) :=
      fun _ _ => commutes_inward {} id actor hinward
    have hids := Commutes.ids_audit_eq (fun n => hcommutes (Session.numbering n)) s
    have hwrites : Moves (.keeping fun r : Records => { r with tasks := [] })
        (answer {} id actor r) :=
      moves_inward {} id actor (fun _ _ => rfl) hinward
    have hunwritten := unchanged_of_written_eq_none {} id actor hinward s
    have hworking := (hwrites s).working
    rcases hanswer : result (answer {} id actor r) s with ⟨f | a, s'⟩ <;>
      rw [hanswer] at hids hunwritten hworking
    · refine .inl ⟨.error f, s', hids, fun refuses => ?_⟩
      rw [Dialogue.run, result_bind, hcommutes (Session.refusing refuses) s, hanswer]
    · have hrest := hnext a
      split at hrest
      case h_1 hnone =>
        obtain rfl : s' = s := hunwritten fun b hb => by
          cases hb
          exact hnone
        rcases ih a hrest with ⟨y, s'', hids, hy⟩ | ⟨transition, full, left, hlogs⟩
        · exact .inl ⟨y, s'', hids, fun refuses =>
            (result_bind_refusing (fun _ => hcommutes _) hanswer refuses).trans (hy refuses)⟩
        · exact .inr ⟨transition, full, left,
            logs_ask id actor (fun _ _ _ => hcommutes _) hanswer hlogs⟩
      case h_2 t _ =>
        -- The task is written and committed; from here on, there is an entry to come.
        obtain ⟨showable, rest, hcommit, hcloses⟩ := hrest
        have hlosing : s.working.losing s'.working = s'.working := Records.losing_eq_self hworking
        obtain ⟨transition, full, left, hlogs⟩ := exists_logs_of_closes id actor hcloses
          (s := { s' with committed := s'.working }) hlosing
        have hkept : Logs s.working s' ((next a).run (answer {} id actor)) transition
            full left := by
          rw [hcommit]
          exact logs_ask id actor (fun _ _ _ => .commit) rfl hlogs
        exact .inr ⟨transition, full, left,
          logs_ask id actor (fun _ _ _ => hcommutes _) hanswer hkept⟩

/-- An operation ends with its entry: the task that it has written is committed before. -/
theorem endsWithEntry_of_opens {x : Dialogue Transition} (h : x.Opens) :
    EndsWithEntry (holding (x.run (answer {} id actor))) := by
  intro s hs
  rcases logs_of_opens id actor h hs with ⟨y, s', hids, hsame⟩ | ⟨transition, full, left, hlogs⟩
  · refine .inl ⟨y, s', fun refuses => ?_⟩
    have hnone : Missed (s.refusing refuses) (s'.refusing refuses) = false := by
      show (refuses && s'.ids .audit != s.ids .audit) = false
      rw [hids, bne_self_eq_false, Bool.and_false]
    rw [result_holding, hsame, hnone]
    cases y <;> rfl
  · exact .inr hlogs.cutShort

end Task

-- ============================================================================
-- Executions
-- ============================================================================

namespace Trigger

variable (definition : String) (actor : AccessContext) (contact : Option String)

/-- Until an execution is committed, no entry is asked for. -/
theorem keeps_audit_enter : Moves (.keeping Records.audit) (enter definition actor contact) := by
  have hcontact : ∀ d, Moves (.keeping Records.audit) (contactFor d actor.org contact) :=
    fun d => .of_records_eq fun s => by
      rw [contactFor_reads]
      exact ⟨rfl, rfl, rfl⟩
  exact .bind (moves_prepare _ _) fun r => .bind (hcontact r.definition) fun c =>
    .bind (.bind (.identify _ _) fun _ => .bind .bareNow fun _ => .bind (.liftColumn _) fun e =>
      .bind (.add e fun _ _ => rfl) fun _ => .pure _) fun _ => .pure _

/-- What comes of a kept execution when the engine is asked to run it. -/
theorem exists_started {k : Kept} {s : Session} {before : List Execution}
    (hworking : s.working.executions = before ++ [k.execution])
    (hfresh : ∀ other ∈ before, other.id ≠ k.execution.id) (horg : k.execution.org = actor.org)
    (hbegun : k.Begun) :
    ∃ e' moment, (e' = named k.execution moment ∨ ∃ d error,
      e' = failed d k.execution error moment) ∧
      (result (start actor k) s).2.working = { s.working with executions := before ++ [e'] } ∧
      (result (start actor k) s).2.committed = (result (start actor k) s).2.working := by
  cases hanswer : (s.engine.start k.execution.id k.params).1 with
  | error error =>
    obtain ⟨s', hstart, hrecords, hcommitted, -⟩ :=
      result_start_refused actor hworking hfresh hbegun.details hanswer
    rw [hstart]
    exact ⟨_, _, .inr ⟨_, _, rfl⟩, hrecords, hcommitted⟩
  | ok _ =>
    obtain ⟨_, s', hstart, -, hrecords, hcommitted, -⟩ :=
      result_start_taken actor hworking hfresh horg hanswer
    rw [hstart]
    exact ⟨_, _, .inl rfl, hrecords, hcommitted⟩

section Entered

variable {s s' : Session} {x : Except Failure Kept}
  (hentered : result (enter definition actor contact) s = (x, s'))

include hentered

theorem result_enter_refusing (refuses : Bool) :
    result (enter definition actor contact) (s.refusing refuses) = (x, s'.refusing refuses) := by
  have henter : Commutes (Session.refusing refuses) (enter definition actor contact) :=
    commutes_enter definition actor contact
  rw [henter s, hentered]

end Entered

section Kept

variable {s s' : Session} {k : Kept}
    (hentered : result (enter definition actor contact) s = (.ok k, s'))

include hentered

/-- An execution whose entry is not taken is committed. -/
theorem exists_keep_refused :
    ∃ left, result (keep definition actor contact) (s.refusing true) =
      (.error (.store .expired), left) ∧
      left.committed = s'.working := by
  obtain ⟨_, hcut, -⟩ := result_keep (result_enter_refusing definition actor contact hentered true)
  exact ⟨_, hcut, rfl⟩

/-- An execution is kept, and its entry as well unless the id of the entry is in use. -/
theorem exists_keep_taken :
    ∃ kept audit, result (keep definition actor contact) (s.refusing false) = (.ok k, kept) ∧
      kept.working = { s'.working with audit } := by
  obtain ⟨_, hkeep, hsame | ⟨-, e, -, hlogged⟩⟩ :=
    result_keep (result_enter_refusing definition actor contact hentered false)
  · exact ⟨_, s'.working.audit, hkeep, hsame⟩
  · exact ⟨_, _, hkeep, hlogged⟩

end Kept

/-- A start ends with its entry: the execution is committed, and the engine is not asked to run
it. -/
theorem endsWithEntry_trigger : EndsWithEntry (trigger definition actor contact) := by
  intro s hs
  have hmoves := (keeps_audit_enter definition actor contact s).working
  rw [trigger_eq]
  rcases hentered : result (enter definition actor contact) s
    -- The attempt fails before its execution is kept, so it never reaches the entry.
    with ⟨f | k, s'⟩ <;> rw [hentered] at hmoves
  · refine .inl ⟨.error f, s', fun refuses => ?_⟩
    rw [result_bind, keep, result_bind, result_enter_refusing definition actor contact hentered]
  · have hfollows := follows_of_enter hentered
    have haudit : s'.working.audit = s.working.audit := hmoves
    have hexecutions : s'.working.executions = s.working.executions ++ [k.execution] :=
      hfollows.working
    -- The entry stands between the row and the start: refused, it leaves the row without a run.
    obtain ⟨left, hcut, hcommitted⟩ := exists_keep_refused definition actor contact hentered
    obtain ⟨kept, audit, hkeep, hworking⟩ := exists_keep_taken definition actor contact hentered
    have hadded : kept.working.executions = s.working.executions ++ [k.execution] := by
      rw [hworking, ← hexecutions]
    have hleft : s'.working = { kept.working with
        audit := s.working.audit
        executions := s.working.executions ++ [k.execution] } := by
      rw [← haudit, ← hexecutions, hworking]
    have hbegun : k.Begun := begun_of_keep hkeep
    -- Taken, it is followed by the start, which writes the row of the execution once more.
    obtain ⟨e', moment, hstarted, hfull, hall⟩ :=
      exists_started actor hadded hfollows.fresh hfollows.org hbegun
    have hremains : s.working.Remains { kept.working with executions :=
      s.working.executions ++ [e'] }
        s'.working := by
      rw [hleft]
      exact .stranded rfl ⟨hbegun.state, hbegun.workflow, hbegun.run⟩ hstarted
    have hend : result (keep definition actor contact >>= start actor) (s.refusing true) =
        (.error (.store .expired), left) := by rw [result_bind, hcut]
    have hgo : result (keep definition actor contact >>= start actor) (s.refusing false) =
        result (start actor k) kept := by rw [result_bind, hkeep]
    refine .inr ⟨by rw [hend], ?_, ?_⟩
    · rw [hend, hgo, hfull, hcommitted]
      exact hremains
    · rw [hend, hgo, hall, hfull, hcommitted]
      exact hremains

end Trigger

-- ============================================================================
-- Routes
-- ============================================================================

namespace Web.Service

theorem commutes_actorOf (r : Request) (refuses : Bool) :
    Commutes (Session.refusing refuses) (actorOf r) := by
  unfold actorOf
  split
  case h_1 | h_2 => exact .pure _
  case h_3 => exact .bind (fun _ => rfl) fun _ => .map _ (.liftFault _)

/-- Finding the actor comes before every entry. -/
theorem endsWithEntry_asActor {r : Request} {act : AccessContext → Tx Response}
    (h : ∀ actor, EndsWithEntry (act actor)) : EndsWithEntry (asActor r act) := by
  refine .read (commutes_actorOf r) (unchanged_actorOf r) fun found => ?_
  cases found with
  | none => exact .pure _
  | some actor => exact h actor

/-- Reading the payload comes before every entry. -/
theorem endsWithEntry_withPayload {α : Type} {payload : Payload α} {act : α → Tx Response}
    (h : ∀ value, EndsWithEntry (act value)) : EndsWithEntry (withPayload payload act) := by
  cases payload with
  | ok value => exact h value
  | error violations => exact .pure _

theorem endsWithEntry_permitted {actor : AccessContext} {p : Permission} {act : Tx Response}
    (h : EndsWithEntry act) : EndsWithEntry (permitted actor p act) := .ite h (.pure _)

section Actor

variable (actor : AccessContext) (id : String)

theorem endsWithEntry_operate (operation : Task.Operation) :
    EndsWithEntry (operate actor id (Task.Order.dialogue ⟨id, actor, {}, operation⟩)) :=
  (Task.endsWithEntry_of_opens id actor (Task.Order.opens ⟨id, actor, {}, operation⟩)).bind_reads
    (fun _ => .bind (.lift _) fun _ => .pure _) fun _ _ => .bind (.lift _) fun _ => .pure _

/-- A change of a contact ends with its entry, and nothing of it is committed before. -/
theorem endsWithEntry_changeContact (payload : Fields) :
    EndsWithEntry (changeContact actor id payload) := by
  unfold changeContact
  -- Fields unknown or not writable are refused before the contact is looked at.
  extract_lets unknown
  refine .ite (.pure _) (.read (fun _ _ => rfl) (fun _ => rfl) fun access => .ite (.pure _) ?_)
  intro s hs
  have hcommutes : ∀ refuses, Commutes (Session.refusing refuses)
      (updateContact id actor.org payload) :=
    fun _ => .updateContact id actor.org payload
  have hmoves : Moves (.keeping s.working.losing) (updateContact id actor.org payload) := by
    refine .bind (.of_records_eq fun _ => ⟨rfl, rfl, rfl⟩) fun found => ?_
    cases found with
    | none => exact .pure _
    | some c =>
      exact .bind (.lift _) fun _ => .bind (.liftColumn _) fun _ => .bind .now fun _ =>
        .bind (.change fun _ => rfl) fun _ => .pure _
  obtain ⟨hworking, hcommitted, -⟩ := hmoves s
  -- Only a change that was made is followed by an entry.
  rcases hact : result (updateContact id actor.org payload) s with ⟨f | _ | shown, s'⟩ <;>
    rw [hact] at hworking hcommitted
  · exact .inl (.of_error hcommutes (congrArg Prod.fst hact))
  · exact .inl (.after hcommutes hact (.of_commutes (fun _ => .pure _) s'))
  · have hlosing : s.working.losing s'.working = s'.committed :=
      (hworking.trans hs).trans hcommitted.symm
    obtain ⟨full, left, hlogs⟩ :=
      exists_logs_record actor.org (some actor.user) "contact" id "updated"
      (.obj [("fields", .texts payload.sortedNames)]) hlosing
    exact .inr (.after hcommutes hact (hlogs.cutShort.bind_reads fun _ => .pure _))

/-- A new definition is followed by its entry and nothing else. -/
theorem endsWithEntry_createDefinition (payload : Fields) :
    EndsWithEntry (createDefinition actor payload) := by
  refine .of_commutes fun _ => .bind (.map _ (.lift _)) fun _ =>
    .bind (.createDefinition _ _) fun kept => ?_
  dsimp only
  split
  · exact .pure _
  · exact .throw _

end Actor

theorem endsWithEntry_engineHealth : EndsWithEntry engineHealth := by
  refine .of_commutes fun _ => .bind (fun _ => rfl) fun answer => ?_
  cases answer <;> exact .pure _

/-- Whatever is asked for comes to its end with an entry that is not taken. -/
theorem endsWithEntry_answerRoute (r : Request) (route : Route) :
    EndsWithEntry (answerRoute r route) := by
  -- Routes that only read, or write without an entry, are alike with and without it.
  cases route with
  | health => exact .pure _
  | engineHealth => exact endsWithEntry_engineHealth
  | showTask id =>
    refine endsWithEntry_asActor fun actor => endsWithEntry_permitted <|
      .of_commutes fun _ => .bind (.find? _ _) fun found => ?_
    cases found <;> exact .pure _
  | changeTask id =>
    exact endsWithEntry_asActor fun actor => endsWithEntry_withPayload fun given =>
      endsWithEntry_permitted <| endsWithEntry_operate actor id (.mutate given)
  | claimTask id =>
    exact endsWithEntry_asActor fun actor => endsWithEntry_permitted <|
      endsWithEntry_operate actor id .claim
  | setStatus id =>
    exact endsWithEntry_asActor fun actor => endsWithEntry_withPayload fun status =>
      endsWithEntry_permitted <| endsWithEntry_operate actor id (.setStatus (.text status))
  | conclude decision id =>
    exact endsWithEntry_asActor fun actor => endsWithEntry_withPayload fun comment =>
      endsWithEntry_permitted <| endsWithEntry_operate actor id (.conclude decision comment)
  | createDefinition =>
    exact endsWithEntry_asActor fun actor => endsWithEntry_withPayload fun payload =>
      endsWithEntry_permitted <| endsWithEntry_createDefinition actor payload
  | compileDraft =>
    exact endsWithEntry_asActor fun actor => endsWithEntry_withPayload fun payload =>
      endsWithEntry_permitted <| .of_commutes fun _ => .map _ (.lift _)
  | compileKept id =>
    refine endsWithEntry_asActor fun actor => endsWithEntry_permitted <|
      .of_commutes fun _ => .bind (.find? _ _) fun found => ?_
    cases found with
    | none => exact .pure _
    | some d => exact .map _ (.lift _)
  | trigger =>
    exact endsWithEntry_asActor fun actor => endsWithEntry_withPayload fun start =>
      endsWithEntry_permitted <| (Trigger.endsWithEntry_trigger start.1 actor start.2).bind_reads
        (fun _ => .pure _) fun _ _ => .pure _
  | showContact id =>
    refine endsWithEntry_asActor fun actor => endsWithEntry_permitted <|
      .of_commutes fun _ => .bind (.find? _ _) fun found => ?_
    cases found with
    | none => exact .pure _
    | some contact => exact .bind (fun _ => rfl) fun _ => .pure _
  | changeContact id =>
    exact endsWithEntry_asActor fun actor => endsWithEntry_withPayload fun payload =>
      endsWithEntry_permitted <| endsWithEntry_changeContact actor id payload
  | showSenders =>
    exact endsWithEntry_asActor fun actor => endsWithEntry_permitted <|
      .of_commutes fun _ => .map _ (.sendersOf _)
  | changeSenders =>
    exact endsWithEntry_asActor fun actor => endsWithEntry_withPayload fun submitted =>
      endsWithEntry_permitted <| .of_commutes fun _ => .map _ (.setSenders _ _)

/-- What is left of a request when the trail takes no entries. Whatever is asked for, it is all that
would be left otherwise, or all but entries, notices and changes of contacts, or a new execution is
stranded. -/
theorem answer_refusing (r : Request) {s : Session} (hs : s.Settled) :
    s.working.Remains (answer r { s with refusesAudit := false }).2.committed
      (answer r { s with refusesAudit := true }).2.committed := by
  have hmethod : EndsWithEntry (answerMethod r r.method.toUpper) := by
    unfold answerMethod
    split
    · exact endsWithEntry_answerRoute r _
    · exact .pure _
    · exact .pure _
    · exact .pure _
  have hanswering : EndsWithEntry (answering r) :=
    hmethod.bind_reads (fun _ => .ite (.throw _) (.pure _)) fun _ _ => .ite (.throw _) (.pure _)
  rw [answer_eq, answer_eq]
  exact hanswering.transact hs

/-- A store with a definition, a contact and a task. -/
def furnished : Session :=
  (transact (do
    discard <| createContact (.text "org_2") ⟨[("id", .text "c1"), ("city", .text "Paris")]⟩
    discard <| createTask (.text "org_2") { id := .text "t1", title := .text "Call" })
    (keptElsewhere "case")).2

/-- What is left of a request if the trail takes no entries, or if it takes them. -/
def leftOf (r : Request) (refuses : Bool) : Records :=
  (answer r { furnished with refusesAudit := refuses }).2.committed

/-- A change of one field, of a contact or of a task. -/
def changing (target field : String) (value : Json) : Request where
  method := "PATCH"
  target := target
  user := some "ann"
  org := some "org_2"
  role := some "org:admin"
  body := .obj [(field, value)]

/-- A contact moves to another city. -/
def moving : Request := changing "/api/v2/contacts/c1" "city" (.text "Rome")

/-- A task is given to somebody. -/
def assigning : Request := changing "/api/v2/tasks/t1" "assigned_to" (.text "bob")

/-- An execution is started, and it is stranded where no entry is taken. -/
theorem answer_refusing_startAbout :
    ((leftOf (startAbout "c1") false).executions.map Execution.workflow =
        [some "generic-workflow-exec-1"] ∧
      (leftOf (startAbout "c1") true).executions.map Execution.workflow = [none]) ∧
      furnished.working.Remains (leftOf (startAbout "c1") false) (leftOf (startAbout "c1") true) :=
  ⟨⟨by decide +kernel, by decide +kernel⟩, answer_refusing (startAbout "c1") (settled_transact _ _)⟩

/-- More than its entry is lost with a request: a contact does not move, who is given a task is not
told, and an execution is not started. -/
theorem not_all_rows_kept :
    (¬ ∀ (r : Request) (s : Session), s.Settled →
      (answer r { s with refusesAudit := false }).2.committed.contacts =
        (answer r { s with refusesAudit := true }).2.committed.contacts) ∧
    (¬ ∀ (r : Request) (s : Session), s.Settled →
      (answer r { s with refusesAudit := false }).2.committed.notices =
        (answer r { s with refusesAudit := true }).2.committed.notices) ∧
    ¬ ∀ (r : Request) (s : Session), s.Settled →
      (answer r { s with refusesAudit := false }).2.committed.executions =
        (answer r { s with refusesAudit := true }).2.committed.executions := by
  have hsettled : furnished.Settled := settled_transact _ _
  have hmoving : (leftOf moving false).contacts.map (fun c => (c.values.value "city").text?) ≠
      (leftOf moving true).contacts.map fun c => (c.values.value "city").text? := by decide +kernel
  have hassigning : (leftOf assigning false).notices.map Notice.user ≠
      (leftOf assigning true).notices.map Notice.user := by decide +kernel
  have hstarting : (leftOf (startAbout "c1") false).executions.map Execution.workflow ≠
      (leftOf (startAbout "c1") true).executions.map Execution.workflow := by decide +kernel
  refine ⟨fun h => hmoving ?_, fun h => hassigning ?_, fun h => hstarting ?_⟩
  · exact congrArg _ (h moving furnished hsettled)
  · exact congrArg _ (h assigning furnished hsettled)
  · exact congrArg _ (h (startAbout "c1") furnished hsettled)

end Web.Service
end Casework
