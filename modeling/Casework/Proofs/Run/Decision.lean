/-
  Casework.Proofs.Run.Decision

  Decisions that name their tasks. A decision that names a task is kept under this task whenever it
  comes in, so all that an inbox holds is drawn from the messages that there are; if no two of them
  decide the same task in different ways, two inboxes that both know a decision about a task know
  the same one. Tasks are the same if their ids have the same value, which is an equivalence but for
  numbers that are nowhere: these are not even equal to themselves.
-/
import Casework.Proofs.Number.Order
import Casework.Proofs.Run.Inbox
import Mathlib.Data.List.Pairwise

namespace Casework

-- ============================================================================
-- Equality by value
-- ============================================================================

namespace Key

/-- Keys are the same if both are nothing, if they are one text, or if they count as one number. -/
theorem same_iff {a b : Key} :
    a.same b ↔ (a = .null ∧ b = .null) ∨ (∃ s, a = .text s ∧ b = .text s) ∨
    ∃ m n, a.number? = some m ∧ b.number? = some n ∧ m.same n := by
  cases a <;> cases b <;> simp [same, number?]
  exact eq_comm

/-- Keys are the same in both orders. -/
theorem same_symm {a b : Key} (h : a.same b) : b.same a := by
  rw [same_iff] at h ⊢
  rcases h with ⟨rfl, rfl⟩ | ⟨s, rfl, rfl⟩ | ⟨m, n, hm, hn, hsame⟩
  · exact .inl ⟨rfl, rfl⟩
  · exact .inr (.inl ⟨s, rfl, rfl⟩)
  · exact .inr (.inr ⟨n, m, hn, hm, by rwa [Number.same_comm]⟩)

theorem same_trans {a b c : Key} (hab : a.same b) (hbc : b.same c) : a.same c := by
  rw [same_iff] at hab hbc ⊢
  rcases hab with ⟨rfl, rfl⟩ | ⟨s, rfl, rfl⟩ | ⟨m, n, hm, hn, hsame⟩
  · simpa [number?] using hbc
  · simpa [number?] using hbc
  · rcases hbc with ⟨rfl, -⟩ | ⟨s, rfl, -⟩ | ⟨n', k, hn', hk, hsame'⟩
    · cases hn
    · cases hn
    · rw [hn, Option.some.injEq] at hn'
      subst hn'
      exact .inr (.inr ⟨m, k, hm, hk, Number.same_trans hsame hsame'⟩)

end Key

namespace Table

variable {α : Type}

/-- Putting a value adds an entry, or changes one whose key is the same. -/
theorem mem_put {table : Table α} {key : Key} {value : α} {entry : Key × α}
    (h : entry ∈ table.put key value) :
    entry ∈ table ∨ entry.2 = value ∧ (entry.1 = key ∨ entry.1.same key) := by
  -- By induction on the table: the value goes to the first entry with the key, or behind all of
  -- them.
  induction table with
  | nil =>
    obtain rfl := List.mem_singleton.1 h
    exact .inr ⟨rfl, .inl rfl⟩
  | cons first rest ih =>
    rw [put] at h
    split at h
    case isTrue hsame =>
      rcases List.mem_cons.1 h with rfl | hrest
      · exact .inr ⟨rfl, .inr hsame⟩
      · exact .inl (List.mem_cons_of_mem _ hrest)
    case isFalse =>
      rcases List.mem_cons.1 h with rfl | hrest
      · exact .inl List.mem_cons_self
      · exact (ih hrest).imp_left (List.mem_cons_of_mem _)

/-- What is found in a table stands in it, under a key that is the same. -/
theorem exists_of_get? {table : Table α} {key : Key} {value : α} (h : table.get? key = some value) :
    ∃ other, (other, value) ∈ table ∧ other.same key := by
  obtain ⟨entry, hfind, rfl⟩ := Option.map_eq_some_iff.1 h
  have hsame := List.find?_some hfind
  exact ⟨entry.1, List.mem_of_find?_eq_some hfind, hsame⟩

end Table

-- ============================================================================
-- Decisions
-- ============================================================================

/-- A message is a decision that names a task, and has these fields. -/
def Signal.Decides (m : Signal) (task : Key) (fields : Fields) : Prop :=
  ∃ payload named, m = .approvalSubmitted payload ∧ payload.mappingOf = .ok fields ∧
    Inbox.givenKey (fields.value "taskId") = .ok (some named) ∧ (named = task ∨ named.same task)

/-- Messages that say the same whenever they come in. -/
structure Signal.Plain (signals : List Signal) : Prop where
  /-- No message is at fault, whatever was told before. -/
  taken : ∀ m ∈ signals, ∀ inbox : Inbox, ∃ inbox', inbox.receive m = .ok inbox'
  /-- A decision names its task. -/
  named : ∀ payload, .approvalSubmitted payload ∈ signals → ∃ fields task,
    payload.mappingOf = .ok fields ∧ Inbox.givenKey (fields.value "taskId") = .ok (some task)
  /-- Decisions about one task do not differ. -/
  once : ∀ m ∈ signals, ∀ n ∈ signals, ∀ task f g, m.Decides task f → n.Decides task g → f = g

/-- A message is a decision with these fields, if it is one. -/
theorem Signal.Decides.unique {m : Signal} {task other : Key} {f g : Fields} (h : m.Decides task f)
    (h' : m.Decides other g) : f = g := by
  obtain ⟨payload, -, rfl, hf, -⟩ := h
  obtain ⟨payload', -, hsame, hg, -⟩ := h'
  cases hsame
  rw [hf] at hg
  exact Except.ok.inj hg

/-- A signal that decides a task is a decision. -/
theorem Signal.isDecision_of_decides {m : Signal} {task : Key} {fields : Fields}
    (h : m.Decides task fields) : m.isDecision = true := by
  obtain ⟨payload, -, rfl, -⟩ := h
  rfl

/-- If no task is decided twice, decisions about one task do not differ. -/
theorem Signal.once_of_pairwise {signals : List Signal}
    (h : signals.Pairwise fun m n => ∀ task f g, m.Decides task f → ¬ n.Decides task g) :
    ∀ m ∈ signals, ∀ n ∈ signals, ∀ task f g, m.Decides task f → n.Decides task g → f = g := by
  refine fun m hm n hn => List.Pairwise.forall_of_forall_of_flip
    (R := fun m n => ∀ task f g, m.Decides task f → n.Decides task g → f = g)
    (fun m _ task f g hf hg => hf.unique hg) (h.imp ?_) (h.imp ?_) hm hn
  · exact fun hmn task f g hf hg => absurd hg (hmn task f g hf)
  · exact fun hmn task f g hf hg => absurd hf (hmn task g f hg)

namespace Inbox

/-- Every decision that is known is one of these messages. -/
def Drawn (signals : List Signal) (inbox : Inbox) : Prop :=
  ∀ entry ∈ inbox.approvals, ∃ m ∈ signals, m.Decides entry.1 entry.2

variable {signals : List Signal} {inbox inbox' : Inbox}

theorem drawn_empty : empty.Drawn signals := fun _ h => absurd h List.not_mem_nil

/-- A decision that is received is one of the signals, and so the inbox still holds their decisions
only. -/
theorem Drawn.receive (hplain : Signal.Plain signals) (h : inbox.Drawn signals) {m : Signal}
    (hm : m ∈ signals) (hreceive : inbox.receive m = .ok inbox') : inbox'.Drawn signals := by
  cases m with
  -- Completions do not touch the decisions.
  | taskCompleted payload =>
    rw [Inbox.receive] at hreceive
    obtain ⟨fields, -, hreceive⟩ := Result.bind_eq_ok_iff.1 hreceive
    obtain ⟨task, -, hreceive⟩ := Result.bind_eq_ok_iff.1 hreceive
    cases task with
    | none => cases hreceive; exact h
    | some task => cases hreceive; exact h
  -- A decision is filed under its task, in the place of an older one.
  | approvalSubmitted payload =>
    obtain ⟨fields, task, hfields, hnamed⟩ := hplain.named payload hm
    rw [Inbox.receive, hfields, Result.ok_bind, hnamed] at hreceive
    cases hreceive
    intro entry hentry
    rcases Table.mem_put hentry with hbefore | ⟨hvalue, hkey⟩
    · exact h entry hbefore
    · exact ⟨_, hm, payload, task, rfl, hvalue ▸ hfields, hvalue ▸ hnamed,
        hkey.imp Eq.symm Key.same_symm⟩

/-- Messages that are taken in leave the decisions drawn from them. -/
theorem Drawn.receiveAll (hplain : Signal.Plain signals) (h : inbox.Drawn signals)
    {batch : List Signal} (hbatch : ∀ m ∈ batch, m ∈ signals) :
    (inbox.receiveAll batch).2 = .ok () ∧ (inbox.receiveAll batch).1.Drawn signals := by
  induction batch generalizing inbox with
  | nil => exact ⟨rfl, h⟩
  | cons m rest ih =>
    obtain ⟨hm, hrest⟩ := List.forall_mem_cons.1 hbatch
    obtain ⟨inbox', hreceive⟩ := hplain.taken m hm inbox
    rw [Inbox.receiveAll, hreceive]
    exact ih (h.receive hplain hm hreceive) hrest

/-- A decision that is found for a task is one that a signal brought. -/
theorem Drawn.decides (h : inbox.Drawn signals) {task : Key} {fields : Fields}
    (hfields : inbox.approval? task = some fields) : ∃ m ∈ signals, m.Decides task fields := by
  obtain ⟨other, hentry, hsame⟩ := Table.exists_of_get? hfields
  obtain ⟨m, hm, payload, named, hpayload, hmapping, hkey, hnamed⟩ := h _ hentry
  refine ⟨m, hm, payload, named, hpayload, hmapping, hkey, .inr ?_⟩
  rcases hnamed with rfl | hnamed
  · exact hsame
  · exact Key.same_trans hnamed hsame

/-- Two inboxes that both know a decision about a task know the same one. -/
theorem Drawn.approval?_eq (hplain : Signal.Plain signals) (h : inbox.Drawn signals)
    (h' : inbox'.Drawn signals) {task : Key} (hknown : (inbox.approval? task).isSome)
    (hknown' : (inbox'.approval? task).isSome) : inbox.approval? task = inbox'.approval? task := by
  obtain ⟨fields, hfields⟩ := Option.isSome_iff_exists.1 hknown
  obtain ⟨fields', hfields'⟩ := Option.isSome_iff_exists.1 hknown'
  obtain ⟨m, hm, hdecides⟩ := h.decides hfields
  obtain ⟨n, hn, hdecides'⟩ := h'.decides hfields'
  rw [hfields, hfields', hplain.once m hm n hn task fields fields' hdecides hdecides']

end Inbox
end Casework
