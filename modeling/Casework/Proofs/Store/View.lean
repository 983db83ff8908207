/-
  Casework.Proofs.Store.View

  What one organization sees of the store. Its view has its own records, of every kind, and no
  others. An act is local to the organization if it makes no difference whether it is carried out on
  the whole store or on the view: it gives the same, and what it leaves, viewed, is what it leaves
  of the view. Reading, changing and putting are local as long as they are about records of the
  organization. The one thing in which records of others could be noticed is a new record that
  clashes with one of them; it does not clash if its id has just been handed out, and those that are
  still to be handed out are not in use.
-/
import Casework.Proofs.Store.Audit
import Mathlib.Data.List.Basic

namespace Casework

-- ============================================================================
-- Views
-- ============================================================================

/-- The records of an organization. -/
def Records.view (org : String) (r : Records) : Records where
  tasks := r.tasks.filter fun x => x.org == org
  executions := r.executions.filter fun x => x.org == org
  contacts := r.contacts.filter fun x => x.org == org
  definitions := r.definitions.filter fun x => x.org == org
  notices := r.notices.filter fun x => x.org == org
  audit := r.audit.filter fun x => x.org == org
  members := r.members.filter fun x => x.org == org
  policies := r.policies.filter fun x => x.org == org
  senders := r.senders.filter fun x => x.org == org

/-- A session in which there are only the records of an organization. -/
def Session.view (org : String) (s : Session) : Session :=
  { s with committed := s.committed.view org, working := s.working.view org }

/-- The ids of the records of a kind. -/
def Records.ids (r : Records) : RecordKind → List String
  | .task => r.tasks.map Task.id
  | .execution => r.executions.map Execution.id
  | .definition => r.definitions.map DefinitionRecord.id
  | .contact => r.contacts.map Contact.id
  | .notice => r.notices.map Notice.id
  | .audit => r.audit.map AuditEntry.id
  | .member => r.members.map Membership.id
  | .policy => r.policies.map PolicyRecord.id

/-- The records of a type stand in one place of the store, and the view has those of the
organization there. -/
class Record.Lawful (ρ : Type) [Record ρ] : Prop where
  all_view : ∀ (org : String) (r : Records),
    Record.all (r.view org) = (Record.all r : List ρ).filter fun x => Record.org x == org := by
      intros; rfl
  replace_view : ∀ (org : String) (l : List ρ) (r : Records),
    (Record.replace l r).view org =
      Record.replace (l.filter fun x => Record.org x == org) (r.view org) := by
      intros; rfl
  ids_replace : ∀ kind : RecordKind,
    (∀ (l : List ρ) (r : Records), (Record.replace l r).ids kind = r.ids kind) ∨
      ∀ r : Records, r.ids kind = (Record.all r : List ρ).map Record.id ∧
        ∀ l : List ρ, (Record.replace l r).ids kind = l.map Record.id := by
      intro kind
      cases kind <;> first | exact .inl fun _ _ => rfl | exact .inr fun _ => ⟨rfl, fun _ => rfl⟩

instance : Record.Lawful Task where
instance : Record.Lawful Execution where
instance : Record.Lawful Contact where
instance : Record.Lawful DefinitionRecord where
instance : Record.Lawful Notice where
instance : Record.Lawful AuditEntry where
instance : Record.Lawful Membership where
instance : Record.Lawful PolicyRecord where
instance : Record.Lawful SenderList where

-- ============================================================================
-- Ids
-- ============================================================================

/-- The id of a kind that is handed out as the one of this number. -/
def RecordKind.idOf (kind : RecordKind) (n : Nat) : String := kind.word ++ "-" ++ toString n

/-- Ids that are handed out tell their kinds and their numbers. -/
theorem RecordKind.idOf_inj {kind other : RecordKind} {n m : Nat} (h : kind.idOf n = other.idOf m) :
    kind = other ∧ n = m := by
  have hplain : ∀ k : RecordKind, '-' ∉ k.word.toList := by
    intro k
    cases k <;> decide
  have hdigits : '-' ∉ Nat.toDigits 10 n := fun hmem =>
    absurd (Nat.isDigit_of_mem_toDigits (by decide) (by decide) hmem) (by decide)
  have htext := congrArg String.toList h
  simp only [idOf, String.toList_append, List.append_assoc, Nat.toString_eq_repr, Nat.repr,
    String.toList_ofList] at htext
  obtain ⟨hword, -, hnumber⟩ := (List.append_cons_inj_of_notMem (hplain kind) hdigits).1 htext
  have hvalue := congrArg (fun cs => Nat.ofDigitChars 10 cs 0) hnumber
  refine ⟨?_, by simpa using hvalue⟩
  have hsame := String.toList_inj.1 hword
  cases kind <;> cases other <;> first | rfl | exact absurd hsame (by decide)

namespace Session

/-- A record of a kind has this id, among those that are committed or those that the session
sees. -/
def Uses (s : Session) (kind : RecordKind) (id : String) : Prop :=
  id ∈ s.working.ids kind ∨ id ∈ s.committed.ids kind

/-- No id that is still to be handed out is in use. -/
def Unused (s : Session) : Prop := ∀ kind n, s.ids kind < n → ¬ s.Uses kind (kind.idOf n)

/-- An id has been handed out, and no record has it yet. -/
structure Offers (s : Session) (kind : RecordKind) (id : String) : Prop where
  unused : s.Unused
  free : ¬ s.Uses kind id
  handedOut : ∃ n ≤ s.ids kind, id = kind.idOf n

/-- Ids stay unused if the records have no other ones than before, but for one that was offered. -/
theorem Unused.of_ids {s s' : Session} (h : s.Unused) (hids : ∀ kind, s.ids kind ≤ s'.ids kind)
    (huses : ∀ kind id, s'.Uses kind id → s.Uses kind id ∨ ∃ other, ∃ n ≤ s.ids other,
      id = other.idOf n) : s'.Unused := by
  intro kind n hn hused
  rcases huses kind _ hused with hbefore | ⟨other, m, hm, hsame⟩
  · exact h kind n (Nat.lt_of_le_of_lt (hids kind) hn) hbefore
  · obtain ⟨rfl, rfl⟩ := RecordKind.idOf_inj hsame
    have := hids kind
    omega

/-- The ids that are handed out have a dash in them. -/
theorem Unused.of_plain {s : Session}
    (h : ∀ kind, ∀ id ∈ s.working.ids kind ++ s.committed.ids kind, '-' ∉ id.toList) :
    s.Unused := by
  intro kind n _ hused
  refine h kind _ (List.mem_append.2 hused) ?_
  simp [RecordKind.idOf]

end Session

namespace Store

variable {α β ρ : Type} {org : String}

-- ============================================================================
-- Local acts
-- ============================================================================

/-- On sessions that fulfil the pre-condition, an act is local to an organization, and afterwards
the post-condition holds. -/
def Local (org : String) (pre post : Session → Prop) (act : Tx α) : Prop :=
  ∀ s, pre s → result act (s.view org) = ((result act s).1, (result act s).2.view org) ∧
    post (result act s).2

/-- An act gives the same in two sessions, and what an organization sees afterwards is the same. -/
def Agree (org : String) (act : Tx α) (s s' : Session) : Prop :=
  (result act s).1 = (result act s').1 ∧ (result act s).2.view org = (result act s').2.view org

/-- Sessions of which an organization sees the same are not told apart by an act that is local to
it. -/
theorem Local.agree {pre post : Session → Prop} {act : Tx α} (h : Local org pre post act)
    {s s' : Session} (hs : pre s) (hs' : pre s') (hview : s.view org = s'.view org) :
    Agree org act s s' := by
  have hboth := (h s hs).1
  rw [hview, (h s' hs').1, Prod.mk.injEq] at hboth
  exact ⟨hboth.1.symm, hboth.2.symm⟩

/-- Two sessions agree on one act after another if they agree on the first, and on the second from
where they come. -/
theorem Agree.bind {act : Tx α} {next : α → Tx β} {s s' : Session} (h : Agree org act s s')
    (hnext : ∀ a t t', result act s = (.ok a, t) → result act s' = (.ok a, t') →
      t.view org = t'.view org → Agree org (next a) t t') : Agree org (act >>= next) s s' := by
  obtain ⟨hsame, hview⟩ := h
  rw [Agree, result_bind, result_bind]
  rcases hleft : result act s with ⟨r, t⟩
  rcases hright : result act s' with ⟨r', t'⟩
  rw [hleft, hright] at hsame hview
  obtain rfl : r = r' := hsame
  cases r with
  | ok a => exact hnext a t t' hleft hright hview
  | error f => exact ⟨rfl, hview⟩

/-- What is kept or dropped at the end of a session is what the organization sees of it. -/
theorem Agree.transact {act : Tx α} {s s' : Session} (h : Agree org act s s') :
    (Store.transact act s).1 = (Store.transact act s').1 ∧
      (Store.transact act s).2.view org = (Store.transact act s').2.view org := by
  obtain ⟨hsame, hview⟩ := h
  rw [transact_eq, transact_eq]
  rcases hleft : result act s with ⟨r, t⟩
  rcases hright : result act s' with ⟨r', t'⟩
  rw [hleft, hright] at hsame hview
  obtain rfl : r = r' := hsame
  cases r with
  | ok a => exact ⟨rfl, congrArg (fun v : Session => { v with committed := v.working }) hview⟩
  | error f => exact ⟨rfl, congrArg (fun v : Session => { v with working := v.committed }) hview⟩

namespace Local

variable {pre mid post : Session → Prop} {act : Tx α}

/-- Less may be said of the session after an act. -/
theorem mono (h : Local org pre mid act) (hpost : ∀ s, mid s → post s) : Local org pre post act :=
  fun s hs => ⟨(h s hs).1, hpost _ (h s hs).2⟩

/-- An act that has a result and changes nothing. -/
theorem of_reads (read : Session → Except Failure α) (hact : ∀ s, result act s = (read s, s))
    (hread : ∀ s, read (s.view org) = read s) : Local org pre pre act := by
  intro s hs
  rw [hact, hact, hread]
  exact ⟨rfl, hs⟩

theorem pure (a : α) : Local org pre pre (pure a : Tx α) :=
  of_reads (fun _ => .ok a) (fun _ => rfl) fun _ => rfl

theorem throw (f : Failure) : Local org pre pre (throw f : Tx α) :=
  of_reads (fun _ => .error f) (fun _ => rfl) fun _ => rfl

theorem lift (x : Except Failure α) : Local org pre pre (Store.lift x) :=
  of_reads (fun _ => x) (fun _ => rfl) fun _ => rfl

theorem liftFault (x : Except Fault α) : Local org pre pre (Store.liftFault x) := lift _

theorem liftColumn (x : Except StoreFault α) : Local org pre pre (Store.liftColumn x) := lift _

theorem now : Local org pre pre now := of_reads (fun s => .ok s.now) (fun _ => rfl) fun _ => rfl

theorem bareNow : Local org pre pre bareNow :=
  of_reads (fun s => .ok s.now.bare) (fun _ => rfl) fun _ => rfl

/-- The rest of the work knows what results the act has. -/
theorem bind_knowing {next : α → Tx β} (h : Local org pre mid act) (known : α → Prop)
    (hknown : ∀ s a s', result act s = (.ok a, s') → known a)
    (hnext : ∀ a, known a → Local org mid post (next a)) (hpost : ∀ s, mid s → post s) :
    Local org pre post (act >>= next) := by
  intro s hs
  obtain ⟨hview, hmid⟩ := h s hs
  rw [result_bind, result_bind, hview]
  rcases hresult : result act s with ⟨r, s'⟩
  rw [hresult] at hmid
  cases r with
  | ok a => exact hnext a (hknown s a s' hresult) s' hmid
  | error f => exact ⟨rfl, hpost s' hmid⟩

/-- One act after another is local if both are. -/
theorem bind {next : α → Tx β} (h : Local org pre mid act)
    (hnext : ∀ a, Local org mid post (next a))
    (hpost : ∀ s, mid s → post s) : Local org pre post (act >>= next) :=
  h.bind_knowing (fun _ => True) (fun _ _ _ _ => trivial) (fun a _ => hnext a) hpost

/-- An act that keeps a condition comes before one that keeps it. -/
theorem andThen {next : α → Tx β} (h : Local org pre pre act)
    (hnext : ∀ a, Local org pre pre (next a)) : Local org pre pre (act >>= next) :=
  h.bind hnext fun _ hs => hs

/-- What is done with a session in which other organizations do not matter. -/
theorem get_bind {next : Session → Tx β} (hnext : ∀ t, Local org pre post (next t))
    (hsame : ∀ t : Session, next (t.view org) = next t) : Local org pre post (get >>= next) := by
  have hget : ∀ t : Session, result (get >>= next) t = result (next t) t := fun _ => rfl
  intro s hs
  rw [hget, hget, hsame]
  exact hnext s s hs

/-- The organization sees whether an entry that it asked for was taken. -/
theorem holding (h : Local org pre post act) : Local org pre post (holding act) := by
  intro s hs
  obtain ⟨hview, hpost⟩ := h s hs
  rw [result_holding, result_holding, hview]
  exact ⟨rfl, hpost⟩

theorem map (f : α → β) (h : Local org pre post act) : Local org pre post (f <$> act) := by
  intro s hs
  obtain ⟨hview, hpost⟩ := h s hs
  rw [result_map, result_map, hview]
  exact ⟨rfl, hpost⟩

theorem discard (h : Local org pre post act) : Local org pre post (discard act) := h.map _

theorem ite {c : Prop} [Decidable c] {other : Tx α} (h : Local org pre post act)
    (h' : Local org pre post other) : Local org pre post (if c then act else other) := by
  split
  · exact h
  · exact h'

/-- To catch a failure is local if act and handler are. -/
theorem tryCatch {handle : Failure → Tx α} (h : Local org pre post act)
    (hhandle : ∀ f, Local org post post (handle f)) : Local org pre post (tryCatch act handle) := by
  intro s hs
  obtain ⟨hview, hpost⟩ := h s hs
  rw [result_tryCatch, result_tryCatch, hview]
  rcases hresult : result act s with ⟨r, s'⟩
  rw [hresult] at hpost
  cases r with
  | ok a => exact ⟨rfl, hpost⟩
  | error f => exact hhandle f s' hpost

theorem ask (call : Engine → Except String Unit × Engine) :
    Local org Session.Unused Session.Unused (ask call) := fun _ hs => ⟨rfl, hs⟩

theorem commit : Local org Session.Unused Session.Unused commit := fun _ hs =>
  ⟨rfl, hs.of_ids (fun _ => Nat.le_refl _) fun _ _ hused => .inl (.inl (or_self_iff.1 hused))⟩

theorem rollback : Local org Session.Unused Session.Unused rollback := fun _ hs =>
  ⟨rfl, hs.of_ids (fun _ => Nat.le_refl _) fun _ _ hused => .inl (.inr (or_self_iff.1 hused))⟩

-- ============================================================================
-- Records
-- ============================================================================

variable [Record ρ] [Record.Lawful ρ]

/-- Records that are looked up by a condition that only those of the organization fulfil. -/
theorem select {p : ρ → Bool} (hp : ∀ r, p r → Record.org r = org) :
    Local org pre pre (select p) := by
  refine of_reads (fun s => .ok ((Record.all s.working).filter p)) (fun _ => rfl) fun s => ?_
  show Except.ok ((Record.all (s.working.view org)).filter p) = _
  rw [Record.Lawful.all_view, List.filter_filter]
  congr 1
  refine List.filter_congr fun r _ => ?_
  cases hr : p r with
  | false => rfl
  | true => simp [hp r hr]

/-- To search for a record of the organization finds one of its own. -/
theorem find? (id : String) : Local org pre pre (find? id org : Tx (Option ρ)) := by
  refine of_reads (fun s => .ok ((Record.all s.working).find? (Record.isOf id org)))
    (fun _ => rfl) fun s => ?_
  show Except.ok ((Record.all (s.working.view org)).find? _) = _
  rw [Record.Lawful.all_view, List.find?_filter]
  congr 2
  funext r
  rw [Bool.eq_iff_iff]
  simp only [Record.isOf, decide_eq_true_iff, Bool.and_eq_true, beq_iff_eq]
  exact ⟨And.right, fun h => ⟨h.2, h⟩⟩

/-- A change of records that leaves each of them with its id and its organization. -/
theorem change {p : ρ → Bool} {f : ρ → ρ}
    (hf : ∀ r, p r → Record.org (f r) = Record.org r ∧ Record.id (f r) = Record.id r) :
    Local org Session.Unused Session.Unused (change p f) := by
  -- The change keeps each record in its organization, and under its id.
  have horg : ∀ r : ρ, Record.org (if p r then f r else r) = Record.org r := by
    intro r
    split
    case isTrue hr => exact (hf r hr).1
    case isFalse => rfl
  have hid : ∀ r : ρ, Record.id (if p r then f r else r) = Record.id r := by
    intro r
    split
    case isTrue hr => exact (hf r hr).2
    case isFalse => rfl
  intro s hs
  rw [result_change, result_change]
  refine ⟨?_, hs.of_ids (fun _ => Nat.le_refl _) fun kind id hused => .inl ?_⟩
  -- The records of the organization are changed among all records as they are in its view.
  · have hview : (Record.all (s.working.view org)).map (fun r => if p r then f r else r) =
        ((Record.all s.working).map fun r => if p r then f r else r).filter
          fun r => Record.org r == org := by
      rw [Record.Lawful.all_view, List.filter_map]
      congr 1
      refine List.filter_congr fun r _ => ?_
      rw [Function.comp_apply, horg]
    simp only [Session.view, Record.Lawful.replace_view]
    rw [hview]
  -- The ids in use stay the same.
  · rcases hused with hused | hused
    · refine .inl ?_
      rcases Record.Lawful.ids_replace (ρ := ρ) kind with hother | hthis
      · rwa [hother] at hused
      · rw [(hthis _).2, List.map_map] at hused
        rw [(hthis _).1]
        simpa [Function.comp_def, hid] using hused
    · exact .inr hused

/-- A new record of the organization, which clashes with none but its own ones. -/
theorem add {r : ρ} (horg : Record.org r = org)
    (hclash : ∀ s, pre s → ∀ x ∈ Record.all s.working, Record.clash r x → Record.org x = org)
    (hpost : ∀ s, pre s → post s ∧
      post { s with working := Record.replace (Record.all s.working ++ [r]) s.working }) :
    Local org pre post (add r) := by
  intro s hs
  -- The record clashes in the view exactly if it does in the store.
  have hany : (Record.all (s.view org).working).any (Record.clash r) =
      (Record.all s.working).any (Record.clash r) := by
    show (Record.all (s.working.view org)).any _ = _
    rw [Record.Lawful.all_view, List.any_filter, Bool.eq_iff_iff, List.any_eq_true,
      List.any_eq_true]
    constructor
    · rintro ⟨x, hx, hboth⟩
      exact ⟨x, hx, (Bool.and_eq_true_iff.1 hboth).2⟩
    · rintro ⟨x, hx, hclashes⟩
      exact ⟨x, hx, by simp [hclash s hs x hx hclashes, hclashes]⟩
  rw [result_add, result_add, hany]
  split
  · exact ⟨rfl, (hpost s hs).1⟩
  · refine ⟨?_, (hpost s hs).2⟩
    have hview : Record.all (s.working.view org) ++ [r] =
        (Record.all s.working ++ [r]).filter fun x => Record.org x == org := by
      rw [Record.Lawful.all_view, List.filter_append]
      simp [horg]
    simp only [Session.view, Record.Lawful.replace_view]
    rw [hview]

/-- What is done with an id that has just been handed out. -/
theorem freshId_bind {kind : RecordKind} {next : String → Tx β}
    (hnext : ∀ id, Local org (fun s => s.Offers kind id) post (next id)) :
    Local org Session.Unused post (freshId kind >>= next) := by
  intro s hs
  let handed : Session := { s with
    ids := fun k => if k = kind then s.ids kind + 1 else s.ids k }
  -- The id is the next one of its kind, in the view as in the store.
  have hfresh : ∀ t : Session, result (freshId kind) t = (.ok (kind.idOf (t.ids kind + 1)),
      { t with ids := fun k => if k = kind then t.ids kind + 1 else t.ids k }) := fun _ => rfl
  -- The id that is offered is free, and all ids behind it are.
  have hoffers : handed.Offers kind (kind.idOf (s.ids kind + 1)) := by
    refine ⟨hs.of_ids (fun k => ?_) fun _ _ hused => .inl hused,
      hs kind _ (Nat.lt_succ_self _), _, ?_,
      rfl⟩
    · show s.ids k ≤ if k = kind then s.ids kind + 1 else s.ids k
      split
      case isTrue h => exact h ▸ Nat.le_succ _
      case isFalse => exact Nat.le_refl _
    · exact Nat.le_of_eq (if_pos rfl).symm
  rw [result_bind, result_bind, hfresh, hfresh]
  exact hnext _ handed hoffers

/-- A new record with the id that has just been handed out clashes with none. -/
theorem add_offered {kind : RecordKind} {r : ρ} (horg : Record.org r = org)
    (hkind : ∀ records : Records, records.ids kind = (Record.all records : List ρ).map Record.id)
    (hclash : ∀ x : ρ, Record.clash r x → Record.id x = Record.id r) :
    Local org (fun s => s.Offers kind (Record.id r)) Session.Unused (Store.add r) := by
  refine add horg (fun s hs x hx hclashes => ?_) fun s hs => ⟨hs.unused, ?_⟩
  -- A record of another organization with this id would stand against what was offered.
  · refine absurd (.inl ?_) hs.free
    rw [hkind, ← hclash x hclashes]
    exact List.mem_map_of_mem hx
  -- Of the ids in use only this one is new, and it was handed out.
  · obtain ⟨n, hn, hid⟩ := hs.handedOut
    refine hs.unused.of_ids (fun _ => Nat.le_refl _) fun k id hused => ?_
    rcases hused with hused | hused
    · rcases Record.Lawful.ids_replace (ρ := ρ) k with hother | hthis
      · exact .inl (.inl (by rwa [hother] at hused))
      · rw [(hthis _).2, List.map_append, List.mem_append, List.map_singleton, List.mem_singleton]
          at hused
        rcases hused with hbefore | rfl
        · exact .inl (.inl (by rw [(hthis _).1]; exact hbefore))
        · exact .inr ⟨kind, n, hn, hid⟩
    · exact .inl (.inr hused)

end Local
end Store
end Casework
