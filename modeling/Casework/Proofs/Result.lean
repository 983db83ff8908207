/-
  Casework.Proofs.Result

  Results that may be failures, taken apart: a sequence of results is a success exactly if each of
  them is.
-/
import Casework.Json.Fault
import Mathlib.Data.List.Forall2

namespace Casework

namespace Result

variable {ε α β : Type}

@[simp] theorem ok_bind (a : α) (f : α → Except ε β) : (Except.ok a >>= f) = f a := rfl

@[simp] theorem error_bind (e : ε) (f : α → Except ε β) : (Except.error e >>= f) = .error e := rfl

@[simp] theorem pure_eq_ok (a : α) : (pure a : Except ε α) = .ok a := rfl

theorem bind_eq_ok_iff {x : Except ε α} {f : α → Except ε β} {b : β} :
    x >>= f = .ok b ↔ ∃ a, x = .ok a ∧ f a = .ok b := by
  cases x with
  | ok a => simp
  | error e => simp

theorem map_eq_ok_iff {x : Except ε α} {f : α → β} {b : β} :
    f <$> x = .ok b ↔ ∃ a, x = .ok a ∧ f a = b := by
  cases x with
  | ok a => simp
  | error e =>
    constructor
    · intro h
      cases h
    · rintro ⟨a, h, -⟩
      cases h

/-- Going through a list succeeds exactly if it does for every item. -/
theorem mapM_eq_ok_iff {f : α → Except ε β} {items : List α} {results : List β} :
    items.mapM f = .ok results ↔
      List.Forall₂ (fun item result => f item = .ok result) items results := by
  induction items generalizing results with
  | nil =>
    rw [List.mapM_nil, List.forall₂_nil_left_iff]
    exact ⟨fun h => by cases h; rfl, fun h => by rw [h]; rfl⟩
  | cons item rest ih =>
    rw [List.mapM_cons, bind_eq_ok_iff]
    constructor
    · rintro ⟨result, hitem, h⟩
      obtain ⟨more, hrest, h⟩ := bind_eq_ok_iff.1 h
      cases h
      exact .cons hitem (ih.1 hrest)
    · intro h
      cases h with
      | cons hitem hrest => exact ⟨_, hitem, by rw [ih.2 hrest]; rfl⟩

/-- Going through a list gives what it gives for every item. -/
theorem mapM_eq_ok_map {f : α → Except ε β} {g : α → β} {items : List α}
    (h : ∀ item ∈ items, f item = .ok (g item)) : items.mapM f = .ok (items.map g) := by
  rw [mapM_eq_ok_iff, List.forall₂_map_right_iff, List.forall₂_same]
  exact h

/-- If every item has a result, all of them have. -/
theorem exists_mapM_eq_ok {f : α → Except ε β} {items : List α}
    (h : ∀ item ∈ items, ∃ result, f item = .ok result) :
    ∃ results, items.mapM f = .ok results := by
  induction items with
  | nil => exact ⟨[], rfl⟩
  | cons item rest ih =>
    obtain ⟨result, hitem⟩ := h item List.mem_cons_self
    obtain ⟨results, hrest⟩ := ih fun i hi => h i (List.mem_cons_of_mem _ hi)
    refine ⟨result :: results, mapM_eq_ok_iff.2 (.cons hitem (mapM_eq_ok_iff.1 hrest))⟩

/-- Going through a list for what there is succeeds exactly if it does for every item. -/
theorem filterMapM_eq_ok_iff {f : α → Except ε (Option β)} {items : List α} {results : List β} :
    items.filterMapM f = .ok results ↔
      ∃ found, items.mapM f = .ok found ∧ found.filterMap id = results := by
  induction items generalizing results with
  | nil => simp
  | cons item rest ih =>
    rw [List.filterMapM_cons, List.mapM_cons]
    -- Each item may give something or nothing; what gives nothing is passed over on both sides.
    cases f item with
    | error e => simp
    | ok first =>
      simp only [ok_bind, bind_eq_ok_iff, pure_eq_ok, Except.ok.injEq]
      cases first with
      | none =>
        rw [ih]
        constructor
        · rintro ⟨found, hfound, rfl⟩
          exact ⟨none :: found, ⟨found, hfound, rfl⟩, rfl⟩
        · rintro ⟨_, ⟨found, hfound, rfl⟩, rfl⟩
          exact ⟨found, hfound, rfl⟩
      | some b =>
        simp only [bind_eq_ok_iff, ih, Except.ok.injEq]
        constructor
        · rintro ⟨_, ⟨found, hfound, rfl⟩, rfl⟩
          exact ⟨some b :: found, ⟨found, hfound, rfl⟩, rfl⟩
        · rintro ⟨_, ⟨found, hfound, rfl⟩, rfl⟩
          exact ⟨_, ⟨found, hfound, rfl⟩, rfl⟩

/-- A result stands for every item. -/
theorem exists_mem_of_mapM_eq_ok {f : α → Except ε β} {items : List α} {results : List β}
    (h : items.mapM f = .ok results) {item : α} (hitem : item ∈ items) :
    ∃ result ∈ results, f item = .ok result := by
  have hall := mapM_eq_ok_iff.1 h
  clear h
  induction hall with
  | nil => exact absurd hitem List.not_mem_nil
  | cons hfirst _ ih =>
    rcases List.mem_cons.1 hitem with rfl | hitem
    · exact ⟨_, List.mem_cons_self, hfirst⟩
    · obtain ⟨result, hmem, hresult⟩ := ih hitem
      exact ⟨result, List.mem_cons_of_mem _ hmem, hresult⟩

/-- Every result is that of an item. -/
theorem exists_item_of_mapM_eq_ok {f : α → Except ε β} {items : List α} {results : List β}
    (h : items.mapM f = .ok results) {result : β} (hresult : result ∈ results) :
    ∃ item ∈ items, f item = .ok result := by
  have hall := mapM_eq_ok_iff.1 h
  clear h
  induction hall with
  | nil => exact absurd hresult List.not_mem_nil
  | cons hfirst _ ih =>
    rcases List.mem_cons.1 hresult with rfl | hresult
    · exact ⟨_, List.mem_cons_self, hfirst⟩
    · obtain ⟨item, hmem, hitem⟩ := ih hresult
      exact ⟨item, List.mem_cons_of_mem _ hmem, hitem⟩

/-- A test that succeeds on all items picks those that fulfil it. -/
theorem filterAuxM_eq_ok {f : α → Except ε Bool} {g : α → Bool}
    (hg : ∀ a b, f a = .ok b → b = g a) {items acc kept : List α}
    (h : items.filterAuxM f acc = .ok kept) :
    (∀ a ∈ items, f a = .ok (g a)) ∧ kept = (items.filter g).reverse ++ acc := by
  induction items generalizing acc with
  | nil =>
    cases h
    exact ⟨by simp, rfl⟩
  | cons item rest ih =>
    obtain ⟨b, hitem, hrest⟩ := bind_eq_ok_iff.1 h
    obtain rfl := hg item b hitem
    obtain ⟨hall, rfl⟩ := ih hrest
    refine ⟨fun a ha => ?_, ?_⟩
    · rcases List.mem_cons.1 ha with rfl | ha
      · exact hitem
      · exact hall a ha
    · cases htest : g item <;> simp [htest]

/-- Asking every item keeps those for which the answer is yes. -/
theorem filterM_eq_ok {f : α → Except ε Bool} {g : α → Bool} (hg : ∀ a b, f a = .ok b → b = g a)
    {items kept : List α} (h : items.filterM f = .ok kept) :
    (∀ a ∈ items, f a = .ok (g a)) ∧ kept = items.filter g := by
  obtain ⟨reversed, haux, hkept⟩ := bind_eq_ok_iff.1 h
  obtain ⟨hall, rfl⟩ := filterAuxM_eq_ok hg haux
  cases hkept
  exact ⟨hall, by simp⟩

/-- A test picks something from items exactly if it succeeds on each of them. -/
theorem exists_filterAuxM_iff {f : α → Except ε Bool} {items : List α} (acc : List α) :
    (∃ kept, items.filterAuxM f acc = .ok kept) ↔ ∀ a ∈ items, ∃ b, f a = .ok b := by
  induction items generalizing acc with
  | nil => exact ⟨fun _ _ h => absurd h List.not_mem_nil, fun _ => ⟨acc, rfl⟩⟩
  | cons item rest ih =>
    rw [List.filterAuxM, List.forall_mem_cons]
    cases hitem : f item with
    | error e => simp
    | ok b =>
      rw [ok_bind, ih]
      exact ⟨fun h => ⟨⟨b, rfl⟩, h⟩, And.right⟩

/-- Every item can be asked exactly if each of them can. -/
theorem exists_filterM_iff {f : α → Except ε Bool} {items : List α} :
    (∃ kept, items.filterM f = .ok kept) ↔ ∀ a ∈ items, ∃ b, f a = .ok b := by
  rw [← exists_filterAuxM_iff [], List.filterM]
  constructor
  · rintro ⟨kept, h⟩
    obtain ⟨reversed, haux, -⟩ := bind_eq_ok_iff.1 h
    exact ⟨reversed, haux⟩
  · rintro ⟨reversed, haux⟩
    exact ⟨reversed.reverse, by rw [haux]; rfl⟩

/-- A test that is told for all items picks those that fulfil it. -/
theorem filterAuxM_eq_ok_filter {f : α → Except ε Bool} {g : α → Bool} {items : List α}
    (h : ∀ item ∈ items, f item = .ok (g item)) (acc : List α) :
    items.filterAuxM f acc = .ok ((items.filter g).reverse ++ acc) := by
  induction items generalizing acc with
  | nil => rfl
  | cons item rest ih =>
    have hrest : ∀ i ∈ rest, f i = .ok (g i) := fun i hi => h i (List.mem_cons_of_mem _ hi)
    rw [List.filterAuxM, h item List.mem_cons_self, ok_bind, ih hrest]
    cases hitem : g item <;> simp [hitem]

/-- Asking every item keeps those that say yes. -/
theorem filterM_eq_ok_filter {f : α → Except ε Bool} {g : α → Bool} {items : List α}
    (h : ∀ item ∈ items, f item = .ok (g item)) : items.filterM f = .ok (items.filter g) := by
  rw [List.filterM, filterAuxM_eq_ok_filter h, ok_bind, List.append_nil, List.reverse_reverse]
  rfl

theorem exists_map_eq_ok {x : Except ε α} {f : α → β} (h : ∃ a, x = .ok a) :
    ∃ b, f <$> x = .ok b := by
  obtain ⟨a, rfl⟩ := h
  exact ⟨f a, rfl⟩

end Result

/-- A field that an object must have, and has. -/
theorem Json.value_of_requiredField {fields : Fields} {name : String} {j : Json}
    (h : (Json.object fields).requiredField name = .ok j) : fields.value name = j := by
  rw [Json.requiredField] at h
  rw [Entries.value]
  cases hget : fields.get? name with
  | none => rw [hget] at h; cases h
  | some value => rw [hget] at h; simpa using h

end Casework
