/-
  Casework.Proofs.Contact.Visibility

  What of a contact can be seen, and what of it can be changed. Two contacts that are told apart
  only by fields that cannot be read are shown in the same way, also after both were given the same
  new values. New values are kept in the fields that they are given for, and in no others.
-/
import Casework.Proofs.Store.Contact

namespace Casework

open Result

-- ============================================================================
-- Entries
-- ============================================================================

namespace Entries

variable {α β : Type}

theorem lookup_map (f : String → α → β) (pairs : List (String × α)) (name : String) :
    (pairs.map fun p => (p.1, f p.1 p.2)).lookup name = (pairs.lookup name).map (f name) := by
  induction pairs with
  | nil => rfl
  | cons pair rest ih =>
    rw [List.map_cons, List.lookup_cons, List.lookup_cons]
    cases hname : name == pair.1 with
    | true => rw [beq_iff_eq.1 hname]; rfl
    | false => exact ih

/-- The values under a name are related as the entries are. -/
theorem rel_lookup {R : String → α → β → Prop} {pairs : List (String × α)}
    {others : List (String × β)}
    (h : List.Forall₂ (fun p q => q.1 = p.1 ∧ R p.1 p.2 q.2) pairs others) (name : String) :
    Option.Rel (R name) (pairs.lookup name) (others.lookup name) := by
  induction h with
  | nil => exact .none
  | cons hpair _ ih =>
    obtain ⟨hsame, hrel⟩ := hpair
    rw [List.lookup_cons, List.lookup_cons, hsame]
    split
    case h_1 hname =>
      rw [beq_iff_eq.1 hname]
      exact .some hrel
    case h_2 => exact ih

/-- A value that is found under a name stands in the list under that name. -/
theorem mem_of_get? {entries : Entries α} {name : String} {value : α}
    (h : entries.get? name = some value) :
    (name, value) ∈ entries.toList := by
  obtain ⟨before, after, hlist, -⟩ := List.lookup_eq_some_iff.1 h
  rw [hlist]
  exact List.mem_append_right _ List.mem_cons_self

theorem mem_names_iff {entries : Entries α} {name : String} :
    name ∈ entries.names ↔ entries.has name = true := by
  rw [has, get?, List.lookup_isSome_iff, names, List.mem_map]
  exact exists_congr fun pair => and_congr_right fun _ => eq_comm.trans beq_iff_eq.symm

/-- To put a new value for a name that is there leaves the names as they are. -/
theorem names_put {entries : Entries α} {name : String} (h : name ∈ entries.names) (value : α) :
    (entries.put name value).names = entries.names := by
  obtain ⟨pairs⟩ := entries
  show (putList name value pairs).map Prod.fst = pairs.map Prod.fst
  replace h : name ∈ pairs.map Prod.fst := h
  induction pairs with
  | nil => exact absurd h List.not_mem_nil
  | cons pair rest ih =>
    rw [putList]
    split
    case isTrue hname => rw [List.map_cons, List.map_cons, beq_iff_eq.1 hname]
    case isFalse hname =>
      rcases List.mem_cons.1 h with rfl | hrest
      · exact absurd (beq_self_eq_true _) hname
      · rw [List.map_cons, List.map_cons, ih hrest]

/-- Entries whose names are put once are told by their names and values. -/
theorem toList_eq_map {fields : Fields} (h : fields.names.Nodup) :
    fields.toList = fields.names.map fun name => (name, fields.value name) := by
  obtain ⟨pairs⟩ := fields
  show pairs = (pairs.map Prod.fst).map fun name => (name, (pairs.lookup name).getD .null)
  replace h : (pairs.map Prod.fst).Nodup := h
  induction pairs with
  | nil => rfl
  | cons pair rest ih =>
    obtain ⟨hnew, hrest⟩ := List.nodup_cons.1 h
    rw [List.map_cons, List.map_cons]
    refine congrArg₂ List.cons ?_ ((ih hrest).trans (List.map_congr_left fun name hname => ?_))
    · rw [List.lookup_cons_self]
      rfl
    · have hne : (name == pair.1) = false := beq_eq_false_iff_ne.2 fun hsame => hnew (hsame ▸ hname)
      rw [List.lookup_cons, hne]

end Entries

-- ============================================================================
-- Contacts
-- ============================================================================

namespace Contact

/-- A contact has a value in every field of contacts, in their order. It stays so when it is given
new values. -/
def Whole (c : Contact) : Prop := c.values.names = contactFields

/-- A contact has the same fields after values are put into it. -/
theorem names_put (c : Contact) (values : Fields) : (c.put values).values.names = c.values.names :=
  List.map_map

/-- Where a contact has a field, the value that was put is found there, or else the value before. -/
theorem get?_put (c : Contact) (values : Fields) (name : String) :
    (c.put values).values.get? name =
      (c.values.get? name).map fun value => (values.get? name).getD value :=
  Entries.lookup_map (fun name value => (values.get? name).getD value) c.values.toList name

namespace Whole

variable {c : Contact} (h : c.Whole)

include h

theorem toList : c.values.toList = contactFields.map fun name => (name, c.values.value name) := by
  have hnodup : c.values.names.Nodup := by
    rw [h]
    decide
  rw [Entries.toList_eq_map hnodup, h]

theorem get? (name : String) :
    c.values.get? name = if name ∈ contactFields then some (c.values.value name) else none := by
  rw [Entries.value]
  cases hvalue : c.values.get? name with
  | none =>
    rw [if_neg]
    intro hfield
    rw [← h] at hfield
    obtain ⟨pair, hpair, rfl⟩ := List.mem_map.1 hfield
    exact absurd (List.lookup_eq_none_iff.1 hvalue pair hpair) (by simp)
  | some value =>
    rw [if_pos]
    · rfl
    · rw [← h]
      exact List.mem_map.2 ⟨_, Entries.mem_of_get? hvalue, rfl⟩

theorem value_put (values : Fields) (name : String) :
    (c.put values).values.value name =
      if name ∈ contactFields then (values.get? name).getD (c.values.value name) else .null := by
  rw [Entries.value, get?_put, h.get? name]
  split <;> rfl

end Whole
end Contact

-- ============================================================================
-- What can be seen
-- ============================================================================

namespace FieldAccess

variable {access : FieldAccess} {c c' : Contact}

/-- Two contacts that are told apart only by their values in fields that cannot be read. -/
structure Alike (access : FieldAccess) (c c' : Contact) : Prop where
  whole : c.Whole
  whole' : c'.Whole
  id : c'.id = c.id
  org : c'.org = c.org
  created : c'.created = c.created
  updated : c'.updated = c.updated
  readable : ∀ name ∈ access.readable, c'.values.value name = c.values.value name

/-- A value as it is shown: null, if the field cannot be read. -/
def seen (access : FieldAccess) (name : String) (value : Json) : Json :=
  if contactFields.contains name && !access.readable.contains name then .null
  else Contact.shownValue name value

/-- Of a contact that is shown everything is shown that the access lets be seen. -/
theorem redact_shown (access : FieldAccess) (c : Contact) :
    access.redact c.shown = ⟨c.row.toList.map fun p => (p.1, access.seen p.1 p.2)⟩ :=
  congrArg Entries.mk List.map_map

/-- What cannot be read makes no difference to what is shown. -/
theorem Alike.redact_eq (h : access.Alike c c') :
    access.redact c'.shown = access.redact c.shown := by
  have hvalues : (c'.values.toList.map fun p => (p.1, access.seen p.1 p.2)) =
      c.values.toList.map fun p => (p.1, access.seen p.1 p.2) := by
    rw [h.whole.toList, h.whole'.toList, List.map_map, List.map_map]
    refine List.map_congr_left fun name hfield => ?_
    show (name, access.seen name (c'.values.value name)) =
      (name, access.seen name (c.values.value name))
    by_cases hreadable : name ∈ access.readable
    · rw [h.readable name hreadable]
    · have hhidden : (contactFields.contains name && !access.readable.contains name) = true := by
        simp [hfield, hreadable]
      rw [seen, seen, if_pos hhidden, if_pos hhidden]
  rw [redact_shown, redact_shown, Contact.row, Contact.row, h.id, h.org, h.created, h.updated]
  simp only [List.map_append, hvalues]

/-- Contacts stay alike when they are given the same new values. -/
theorem Alike.asGiven (h : access.Alike c c') (values : Contact.NewValues) (moment : Moment) :
    access.Alike (c.asGiven values moment) (c'.asGiven values moment) where
  whole := (c.names_put _).trans h.whole
  whole' := (c'.names_put _).trans h.whole'
  id := h.id
  org := h.org
  created := h.created
  updated := rfl
  readable name hname := by
    show (c'.put _).values.value name = (c.put _).values.value name
    rw [h.whole.value_put, h.whole'.value_put, h.readable name hname]

/-- All that a payload names are fields of contacts, and can be written. -/
def Permits (access : FieldAccess) (payload : Fields) : Prop :=
  ∀ name, payload.has name → name ∈ contactFields ∧ name ∈ access.writable

end FieldAccess

-- ============================================================================
-- What can be changed
-- ============================================================================

namespace Contact

/-- What the column of a field keeps of a value that is given for it. -/
def Keeps (name : String) (given kept : Json) : Prop :=
  ∃ value, NewValue.of name given = .ok value ∧ value.kept = .ok kept

/-- A contact that was given new values at a moment: in the fields that the payload names there is
what their columns keep, a document that equals the one before being kept as it is; the other fields
and all else are as before, but for the moment of the change. -/
structure GivenAnew (payload : Fields) (moment : Moment) (c c' : Contact) : Prop where
  id : c'.id = c.id
  org : c'.org = c.org
  created : c'.created = c.created
  updated : c'.updated = moment.bare
  whole : c'.Whole
  given : ∀ name given, name ∈ contactFields → payload.get? name = some given →
    ∃ kept, Keeps name given kept ∧ c'.values.value name =
      if keepsDocuments name then Column.document (c.values.value name) kept else kept
  others : ∀ name, payload.get? name = none → c'.values.value name = c.values.value name

variable {payload : Fields} {values : NewValues}

theorem named_eq_ok_iff {given : String × Json} {new : String × NewValue} :
    (NewValue.of given.1 given.2 >>= fun value => pure (given.1, value)) = .ok new ↔
      new.1 = given.1 ∧ NewValue.of given.1 given.2 = .ok new.2 := by
  rw [bind_eq_ok_iff]
  constructor
  · rintro ⟨value, hvalue, hnew⟩
    cases hnew
    exact ⟨rfl, hvalue⟩
  · rintro ⟨hname, hvalue⟩
    exact ⟨new.2, hvalue, by rw [← hname]; rfl⟩

/-- A name has a new value exactly if the payload has one for it, and the new value is made of
it. -/
theorem rel_newValues (h : newValues payload = .ok values) (name : String) :
    Option.Rel (fun given value => NewValue.of name given = .ok value) (payload.get? name)
      (values.get? name) := by
  obtain ⟨pairs, hpairs, rfl⟩ := map_eq_ok_iff.1 h
  exact Entries.rel_lookup (R := fun name given value => NewValue.of name given = .ok value)
    ((mapM_eq_ok_iff.1 hpairs).imp fun _ _ => named_eq_ok_iff.1) name

/-- Every new value is made of a value of the payload, under the same name. -/
theorem exists_given_of_newValues (h : newValues payload = .ok values) {new : String × NewValue}
    (hnew : new ∈ values.toList) :
    ∃ given ∈ payload.toList, new.1 = given.1 ∧ NewValue.of given.1 given.2 = .ok new.2 := by
  obtain ⟨pairs, hpairs, rfl⟩ := map_eq_ok_iff.1 h
  obtain ⟨given, hgiven, hitem⟩ := exists_item_of_mapM_eq_ok hpairs hnew
  exact ⟨given, hgiven, named_eq_ok_iff.1 hitem⟩

/-- If each value of the payload can be taken, there are new values. -/
theorem exists_newValues
    (h : ∀ pair ∈ payload.toList, ∃ value, NewValue.of pair.1 pair.2 = .ok value) :
    ∃ values, newValues payload = .ok values := by
  refine exists_map_eq_ok (exists_mapM_eq_ok fun pair hpair => ?_)
  obtain ⟨value, hvalue⟩ := h pair hpair
  exact ⟨(pair.1, value), named_eq_ok_iff.2 ⟨rfl, hvalue⟩⟩

/-- What the column of a field keeps of the new value for it, if there is one. -/
def keptIn (values : NewValues) (name : String) : Except StoreFault (Option (String × Json)) :=
  match values.get? name with
  | some value => do pure (some (name, ← value.kept))
  | none => pure none

/-- That dates are looked at before all else decides at most why new values are not kept. -/
theorem kept_eq_ok_iff {kept : Fields} :
    Contact.kept values = .ok kept ↔ contactFields.filterMapM (keptIn values) =
      .ok kept.toList := by
  have hrest : ((contactFields.filterMapM (keptIn values) >>= fun texts => pure ⟨texts⟩) :
      Except StoreFault Fields) = .ok kept ↔
      contactFields.filterMapM (keptIn values) = .ok kept.toList := by
    rw [bind_eq_ok_iff]
    -- Nothing but the columns counts once the date has passed.
    constructor
    · rintro ⟨texts, htexts, hkept⟩
      cases hkept
      exact htexts
    · exact fun htexts => ⟨_, htexts, rfl⟩
  rw [← hrest, Contact.kept]
  dsimp only
  split
  case h_2 => rfl
  -- The date of the last contact is looked at before all columns. Since it is one of the fields,
  -- the columns refuse it too.
  case h_1 date hdate =>
    constructor
    · intro h
      obtain ⟨_, -, h⟩ := bind_eq_ok_iff.1 h
      exact h
    · intro h
      obtain ⟨found, hfound, -⟩ := filterMapM_eq_ok_iff.1 (hrest.1 h)
      obtain ⟨_, -, hcolumn⟩ := exists_mem_of_mapM_eq_ok hfound
        (show "last_contacted_at" ∈ contactFields by decide)
      rw [keptIn, hdate] at hcolumn
      obtain ⟨_, hdate, -⟩ := bind_eq_ok_iff.1 hcolumn
      refine bind_eq_ok_iff.2 ⟨(), ?_, h⟩
      rw [hdate]
      rfl

/-- A column keeps something if there is a new value for its field, and keeps what the column makes
of it. -/
theorem keptIn_eq_some_iff {name : String} {pair : String × Json} :
    keptIn values name = .ok (some pair) ↔
      ∃ value, values.get? name = some value ∧ pair.1 = name ∧ value.kept = .ok pair.2 := by
  rw [keptIn]
  cases values.get? name with
  | none => simp
  | some value =>
    rw [bind_eq_ok_iff]
    constructor
    · rintro ⟨k, hk, hpair⟩
      cases hpair
      exact ⟨value, rfl, rfl, hk⟩
    · rintro ⟨_, hsome, rfl, hk⟩
      cases hsome
      exact ⟨_, hk, rfl⟩

/-- What is kept for a field goes with the new value for it: there is one if there is the other, and
the column makes it of the new value. -/
theorem rel_kept {kept : Fields} (h : Contact.kept values = .ok kept) {name : String}
    (hfield : name ∈ contactFields) :
    Option.Rel (fun value k => value.kept = .ok k) (values.get? name) (kept.get? name) := by
  obtain ⟨found, hfound, hlist⟩ := filterMapM_eq_ok_iff.1 (kept_eq_ok_iff.1 h)
  have hmem : ∀ pair, pair ∈ kept.toList ↔ some pair ∈ found := by
    intro pair
    rw [← hlist, List.mem_filterMap]
    simp
  -- Whatever is kept was kept by the column of its name.
  have hkept : ∀ k, kept.get? name = some k →
      ∃ value, values.get? name = some value ∧ value.kept = .ok k := by
    intro k hk
    obtain ⟨other, -, hother⟩ :=
      exists_item_of_mapM_eq_ok hfound ((hmem _).1 (Entries.mem_of_get? hk))
    obtain ⟨value, hvalue, rfl, hkept⟩ := keptIn_eq_some_iff.1 hother
    exact ⟨value, hvalue, hkept⟩
  -- The other way round, the column of each field is asked, so a new value cannot be passed over.
  cases hvalue : values.get? name with
  | none =>
    cases hk : kept.get? name with
    | none => exact .none
    | some k =>
      obtain ⟨value, hsome, -⟩ := hkept k hk
      rw [hvalue] at hsome
      cases hsome
  | some value =>
    obtain ⟨_, hin, hcolumn⟩ := exists_mem_of_mapM_eq_ok hfound hfield
    rw [keptIn, hvalue] at hcolumn
    obtain ⟨k, hk, hpair⟩ := bind_eq_ok_iff.1 hcolumn
    cases hpair
    have hhas : (kept.get? name).isSome :=
      List.lookup_isSome_iff.2 ⟨_, (hmem _).2 hin, beq_iff_eq.2 rfl⟩
    obtain ⟨k', hk'⟩ := Option.isSome_iff_exists.1 hhas
    obtain ⟨_, hsame, hkept'⟩ := hkept k' hk'
    rw [hvalue] at hsame
    cases hsame
    rw [hk']
    exact .some hkept'

/-- What is kept in a field is kept of what is given for it. -/
theorem rel_keeps {kept : Fields} (hvalues : newValues payload = .ok values)
    (hkept : Contact.kept values = .ok kept) {name : String} (hfield : name ∈ contactFields) :
    Option.Rel (Keeps name) (payload.get? name) (kept.get? name) := by
  have hgiven := rel_newValues hvalues name
  have hkept := rel_kept hkept hfield
  generalize payload.get? name = given at hgiven ⊢
  generalize values.get? name = value at hgiven hkept
  generalize kept.get? name = k at hkept ⊢
  cases hgiven with
  | none =>
    cases hkept
    exact .none
  | some hvalue =>
    cases hkept with
    | some hk => exact .some ⟨_, hvalue, hk⟩

/-- If the columns keep something of all that is given, new values are kept. -/
theorem exists_kept (h : ∀ pair ∈ payload.toList, ∃ k, Keeps pair.1 pair.2 k) :
    ∃ values kept, newValues payload = .ok values ∧ Contact.kept values = .ok kept := by
  obtain ⟨values, hvalues⟩ := exists_newValues fun pair hpair => by
    obtain ⟨_, value, hvalue, -⟩ := h pair hpair
    exact ⟨value, hvalue⟩
  -- Every column takes the new value that there may be for it.
  have hcolumns : ∀ name ∈ contactFields, ∃ found, keptIn values name = .ok found := by
    intro name _
    rw [keptIn]
    cases hvalue : values.get? name with
    | none => exact ⟨none, rfl⟩
    | some value =>
      obtain ⟨given, hgiven, -, hof⟩ :=
        exists_given_of_newValues hvalues (Entries.mem_of_get? hvalue)
      obtain ⟨k, other, hother, hk⟩ := h given hgiven
      obtain rfl : other = value := Except.ok.inj (hother.symm.trans hof)
      exact ⟨some (name, k), by dsimp only; rw [hk]; rfl⟩
  obtain ⟨found, hfound⟩ := exists_mapM_eq_ok hcolumns
  exact ⟨values, ⟨_⟩, hvalues, kept_eq_ok_iff.2 (filterMapM_eq_ok_iff.2 ⟨found, hfound, rfl⟩)⟩

/-- A contact that keeps new values has, in each field, what is kept for it, which is added to the
documents where a field keeps documents, and else what it had. -/
theorem Whole.value_keep {c : Contact} (h : c.Whole) (kept : Fields) {name : String}
    (hfield : name ∈ contactFields) :
    (c.keep kept).values.value name = ((kept.get? name).map fun k =>
      if keepsDocuments name then Column.document (c.values.value name) k else k).getD
        (c.values.value name) := by
  have hlookup := Entries.lookup_map (fun name k =>
    if keepsDocuments name then Column.document (c.values.value name) k else k) kept.toList name
  rw [keep, h.value_put, if_pos hfield]
  exact congrArg (Option.getD · _) hlookup

/-- A contact that is changed is given the new values anew, and nothing else. -/
theorem Whole.givenAnew {c : Contact} (h : c.Whole) {kept : Fields}
    (hvalues : newValues payload = .ok values) (hkept : Contact.kept values = .ok kept)
    (moment : Moment) : c.GivenAnew payload moment (c.changed kept moment) where
  id := rfl
  org := rfl
  created := rfl
  updated := rfl
  whole := (c.names_put _).trans h
  -- What the payload gives is kept.
  given name given hfield hgiven := by
    have hkeeps := rel_keeps hvalues hkept hfield
    rw [hgiven] at hkeeps
    have hvalue := h.value_keep kept hfield
    generalize kept.get? name = k at hkeeps hvalue
    cases hkeeps with
    | some hkeeps => exact ⟨_, hkeeps, hvalue⟩
  -- What the payload does not name stays, whether it is a field or not.
  others name hnone := by
    show (c.keep kept).values.value name = c.values.value name
    by_cases hfield : name ∈ contactFields
    · have hkeeps := rel_keeps hvalues hkept hfield
      rw [hnone] at hkeeps
      rw [h.value_keep kept hfield]
      generalize kept.get? name = k at hkeeps
      cases hkeeps
      rfl
    · rw [keep, h.value_put, if_neg hfield, Entries.value, h.get?, if_neg hfield]
      rfl

end Contact

end Casework
