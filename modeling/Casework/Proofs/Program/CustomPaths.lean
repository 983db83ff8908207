/-
  Casework.Proofs.Program.CustomPaths

  What a run finds under the ids and the friendly keys of its custom variables. All of them are put
  into one space, each under its id and then under its key, in the order of their declarations;
  whoever puts a value under a name last is found there. So a variable is found under its id unless
  a later one has that id for its key, and under its key unless a later one has that key for its id.
-/
import Casework.Proofs.Template.FriendlyKey

namespace Casework

open Result

/-- The variable as a run reads it. -/
def Variable.declared (v : Variable) : Variables.Declared :=
  ⟨v.id, v.name, .text v.kind, .object v.source⟩

/-- The text of the variable's own value. -/
def Variable.own (v : Variable) : Json := .text (Variables.textOf (v.source.value "value"))

namespace Variables

-- ============================================================================
-- The last one to put a value
-- ============================================================================

theorem customPath_injective : Function.Injective Template.customPath := by
  intro a b h
  have hlist := congrArg String.toList h
  rw [Template.customPath, Template.customPath, String.toList_append, String.toList_append] at hlist
  exact String.toList_inj.1 (List.append_cancel_left hlist)

/-- Puts the values of custom variables under their ids and under the names that a function
gives. -/
def putUnder (key : Declared → String) (vars : Variables) (custom : List Declared) : Variables :=
  custom.foldl (fun vars d =>
    (vars.put (Template.customPath d.id) (.text d.value)).put
      (Template.customPath (key d)) (.text d.value)) vars

/-- Custom variables are put one after the other, each under its id and its key. -/
theorem putCustom_eq (vars : Variables) (custom : List Declared) :
    vars.putCustom custom = putUnder (fun d => ((keysOf custom).get? d.id).getD "") vars custom :=
  rfl

section Putting

variable {key : Declared → String} {name : String}

/-- Whether a variable has a name for its id or its key. -/
def Bears (key : Declared → String) (name : String) (d : Declared) : Prop :=
  d.id = name ∨ key d = name

/-- Nobody changes what is under a name that is neither an id nor a key. -/
theorem get?_putUnder_of_strange (vars : Variables) {custom : List Declared}
    (h : ∀ d ∈ custom, ¬ Bears key name d) :
    (putUnder key vars custom).get? (Template.customPath name) =
      vars.get? (Template.customPath name) := by
  induction custom generalizing vars with
  | nil => rfl
  | cons d rest ih =>
    obtain ⟨hid, hkey⟩ := not_or.1 (h d List.mem_cons_self)
    have hid : Template.customPath name ≠ Template.customPath d.id := fun hsame =>
      hid (customPath_injective hsame).symm
    have hkey : Template.customPath name ≠ Template.customPath (key d) := fun hsame =>
      hkey (customPath_injective hsame).symm
    show (putUnder key _ rest).get? _ = _
    rw [ih _ fun e he => h e (List.mem_cons_of_mem _ he), Entries.get?_put, if_neg hkey,
      Entries.get?_put,
      if_neg hid]

/-- The last variable with a name for its id or its key is found under the name. -/
theorem get?_putUnder_of_last (vars : Variables) {before after : List Declared} {d : Declared}
    (hname : Bears key name d) (hlast : ∀ e ∈ after, ¬ Bears key name e) :
    (putUnder key vars (before ++ d :: after)).get? (Template.customPath name) =
      some (.text d.value) := by
  rw [putUnder, List.foldl_append]
  show (putUnder key _ after).get? _ = _
  rw [get?_putUnder_of_strange _ hlast, Entries.get?_put]
  split
  case isTrue => rfl
  case isFalse hkey =>
    have hid : d.id = name := hname.resolve_right fun hsame => hkey (by rw [hsame])
    rw [hid, Entries.get?_put, if_pos rfl]

/-- Where one variable at most comes later with the same name, a variable is found there unless that
one has another value. -/
theorem get?_putUnder_iff (vars : Variables) {before after : List Declared} {d : Declared}
    (hname : Bears key name d) (honce : after.Pairwise fun e f => Bears key name e →
      ¬ Bears key name f) :
    (putUnder key vars (before ++ d :: after)).get? (Template.customPath name) =
      some (.text d.value) ↔
      ∀ e ∈ after, Bears key name e → e.value = d.value := by
  -- What is found is what the last variable with the name has put there; only one more can follow.
  by_cases hlater : ∃ e ∈ after, Bears key name e
  · obtain ⟨e, he, hbears⟩ := hlater
    obtain ⟨front, rest, rfl⟩ := List.append_of_mem he
    obtain ⟨-, hrest, hfront⟩ := List.pairwise_append.1 honce
    have hbehind : ∀ f ∈ rest, ¬ Bears key name f := fun f hf =>
      (List.pairwise_cons.1 hrest).1 f hf hbears
    have hahead : ∀ f ∈ front, ¬ Bears key name f := fun f hf hbearsf =>
      hfront f hf e List.mem_cons_self hbearsf hbears
    have hfound : (putUnder key vars (before ++ d :: (front ++ e :: rest))).get?
        (Template.customPath name) = some (.text e.value) := by
      rw [← List.cons_append, ← List.append_assoc]
      exact get?_putUnder_of_last vars hbears hbehind
    rw [hfound, Option.some_inj, Json.text.injEq]
    constructor
    · intro hsame f hf hbearsf
      rcases List.mem_append.1 hf with hf | hf
      · exact absurd hbearsf (hahead f hf)
      · rcases List.mem_cons.1 hf with rfl | hf
        · exact hsame
        · exact absurd hbearsf (hbehind f hf)
    · exact fun hall => hall e he hbears
  -- None follows, so the value is that of the variable itself.
  · have hlast : ∀ e ∈ after, ¬ Bears key name e := fun e he hbears => hlater ⟨e, he, hbears⟩
    exact iff_of_true (get?_putUnder_of_last vars hname hlast) fun e he hbears =>
      absurd hbears (hlast e he)

/-- Names that are given once each differ from that of an earlier variable, and from each other. -/
theorem distinct_of_nodup {given : Declared → String} {before after : List Declared} {d : Declared}
    (h : ((before ++ d :: after).map given).Nodup) :
    (∀ e ∈ after, given e ≠ given d) ∧ after.Pairwise fun e f => given e ≠ given f := by
  rw [List.map_append, List.map_cons] at h
  obtain ⟨hfirst, hrest⟩ := List.nodup_cons.1 (List.nodup_append.1 h).2.1
  exact ⟨fun e he hsame => hfirst (hsame ▸ List.mem_map_of_mem he), List.pairwise_map.1 hrest⟩

variable {before after : List Declared} {d : Declared}
  (hids : ((before ++ d :: after).map Declared.id).Nodup)
  (hkeys : ((before ++ d :: after).map key).Nodup)

include hids hkeys

/-- A variable is found under its id, unless one with that key and another value comes later. -/
theorem get?_putUnder_id (vars : Variables) :
    (putUnder key vars (before ++ d :: after)).get? (Template.customPath d.id) =
      some (.text d.value) ↔
      ∀ e ∈ after, key e = d.id → e.value = d.value := by
  have hbears : ∀ e ∈ after, (Bears key d.id e ↔ key e = d.id) := fun e he =>
    or_iff_right ((distinct_of_nodup hids).1 e he)
  have honce : after.Pairwise fun e f => Bears key d.id e → ¬ Bears key d.id f :=
    (distinct_of_nodup hkeys).2.imp_of_mem fun {e f} he hf hne hbearse hbearsf =>
      hne (((hbears e he).1 hbearse).trans ((hbears f hf).1 hbearsf).symm)
  rw [get?_putUnder_iff vars (.inl rfl) honce]
  exact forall₂_congr fun e he => by rw [hbears e he]

/-- A variable is found under its key, unless one with that id and another value comes later. -/
theorem get?_putUnder_key (vars : Variables) :
    (putUnder key vars (before ++ d :: after)).get? (Template.customPath (key d)) =
      some (.text d.value) ↔
      ∀ e ∈ after, e.id = key d → e.value = d.value := by
  have hbears : ∀ e ∈ after, (Bears key (key d) e ↔ e.id = key d) := fun e he =>
    or_iff_left ((distinct_of_nodup hkeys).1 e he)
  have honce : after.Pairwise fun e f => Bears key (key d) e → ¬ Bears key (key d) f :=
    (distinct_of_nodup hids).2.imp_of_mem fun {e f} he hf hne hbearse hbearsf =>
      hne (((hbears e he).1 hbearse).trans ((hbears f hf).1 hbearsf).symm)
  rw [get?_putUnder_iff vars (.inr rfl) honce]
  exact forall₂_congr fun e he => by rw [hbears e he]

end Putting

-- ============================================================================
-- Declarations
-- ============================================================================

/-- A run reads a well-formed variable as it is. -/
theorem declared?_of_ofJson? {j : Json} {v : Variable} (h : Variable.ofJson? j = some v) :
    declared? j = some v.declared := by
  cases j with
  | object fields =>
    simp only [Variable.ofJson?, Option.bind_eq_bind, Option.bind_eq_some_iff,
      Option.some.injEq] at h
    obtain ⟨id, hid, name, hname, kind, hkind, source, hsource, rfl⟩ := h
    -- Reading the definition asks for a type that is a text; the run takes one for granted.
    have hgiven : (fields.get? "type").getD (.text "custom") = .text kind := by
      rw [Entries.value] at hkind
      cases htype : fields.get? "type" with
      | none => rw [htype] at hkind; cases hkind
      | some type =>
        rw [htype] at hkind
        cases type <;> cases hkind
        rfl
    -- An empty source counts as absent, and stands for the empty one.
    have hobject : (fields.value "source").orElse (.obj []) = .object source := by
      cases hvalue : fields.value "source" with
      | object given =>
        rw [hvalue] at hsource
        rw [Option.some.inj hsource]
        obtain ⟨pairs⟩ := source
        cases pairs <;> rfl
      | _ => rw [hvalue] at hsource; cases hsource
    simp [declared?, hid, hname, hgiven, hobject, Variable.declared]
  | _ => cases h

/-- A variable is custom for the run if it is for the program. -/
theorem isCustom_declared (v : Variable) : v.declared.isCustom = .ok v.isCustom := rfl

/-- A run has the custom ones of well-formed variables. -/
theorem customOf_eq {items : List Json} (h : ∀ j ∈ items, (Variable.ofJson? j).isSome) :
    customOf (.list items) =
      .ok (((Variable.listOfJson (.list items)).filter Variable.isCustom).map
        Variable.declared) := by
  -- The run reads the same declarations as the program.
  have hread : items.filterMap declared? =
      (Variable.listOfJson (.list items)).map Variable.declared := by
    rw [Variable.listOfJson, List.map_filterMap]
    refine List.filterMap_congr fun j hj => ?_
    obtain ⟨v, hv⟩ := Option.isSome_iff_exists.1 (h j hj)
    rw [declared?_of_ofJson? hv, hv, Option.map_some]
  -- Whether a declaration is custom can be told of each of them.
  have hasked : ∀ d ∈ items.filterMap declared?, ∃ b, d.isCustom = .ok b := by
    rw [hread]
    intro d hd
    obtain ⟨v, -, rfl⟩ := List.mem_map.1 hd
    exact ⟨_, isCustom_declared v⟩
  obtain ⟨custom, hcustom⟩ := exists_filterM_iff.2 hasked
  have hkept := (filterM_eq_ok (fun d b hd => (isCustom_eq_ok hd).2) hcustom).2
  rw [hread, List.filter_map] at hkept
  have hitems : customOf (.list items) = .ok custom := hcustom
  rw [hitems, hkept]
  rfl

/-- What is put under other paths changes nothing under those of custom variables. -/
theorem get?_putWorkflow (vars : Variables) (fields : List (String × Json)) (name : String) :
    (fields.foldl (fun vs (name, value) => vs.put ("workflow." ++ name) (.text (textOf value)))
      vars).get? (Template.customPath name) = vars.get? (Template.customPath name) := by
  induction fields generalizing vars with
  | nil => rfl
  | cons field rest ih =>
    have hne : Template.customPath name ≠ "workflow." ++ field.1 := by
      intro hsame
      have hlist := congrArg String.toList hsame
      simp [Template.customPath] at hlist
    rw [List.foldl_cons, ih, Entries.get?_put, if_neg hne]

-- ============================================================================
-- Custom variables at the start of a run
-- ============================================================================

section Found

variable {vars before after : List Variable} {v : Variable}
  (hids : (vars.map Variable.id).Nodup)
  (hkeys : ((Template.keysOf vars).toList.map Prod.snd).Nodup)

include hids

/-- Every custom variable has a key. -/
theorem exists_get?_keysOf (hv : v ∈ vars.filter Variable.isCustom) :
    ∃ key, (Template.keysOf vars).get? v.id = some key := by
  have hnames := Template.names_keysOf hids
  have hname : v.id ∈ (Template.keysOf vars).names := hnames ▸ List.mem_map_of_mem hv
  have hnodup : (Template.keysOf vars).names.Nodup :=
    hnames ▸ hids.sublist (List.filter_sublist.map _)
  have hfound := List.mem_map_of_mem (f := (Template.keysOf vars).get?) hname
  rw [Entries.map_get?_names hnodup] at hfound
  obtain ⟨pair, -, hpair⟩ := List.mem_map.1 hfound
  exact ⟨pair.2, hpair.symm⟩

include hkeys

/-- Different keys are different for the custom variables. -/
theorem nodup_map_key :
    (((vars.filter Variable.isCustom).map Variable.declared).map fun d =>
      ((Template.keysOf vars).get? d.id).getD "").Nodup := by
  have hnames := Template.names_keysOf hids
  have hnodup : (Template.keysOf vars).names.Nodup :=
    hnames ▸ hids.sublist (List.filter_sublist.map _)
  have hvalues : ((Template.keysOf vars).names.map fun id =>
    ((Template.keysOf vars).get? id).getD "") =
      (Template.keysOf vars).toList.map Prod.snd := by
    have hmap := congrArg (List.map fun key : Option String => key.getD "")
      (Entries.map_get?_names hnodup)
    rwa [List.map_map, List.map_map] at hmap
  rw [hnames, List.map_map] at hvalues
  rw [List.map_map]
  exact hvalues ▸ hkeys

theorem get?_putCustom_iff (hsplit : vars.filter Variable.isCustom = before ++ v :: after)
    (started : Variables) :
    ∃ key, (Template.keysOf vars).get? v.id = some key ∧
      ((started.putCustom ((vars.filter Variable.isCustom).map Variable.declared)).get?
          (Template.customPath v.id) = some v.own ↔
        ∀ w ∈ after, (Template.keysOf vars).get? w.id = some v.id → w.own = v.own) ∧
      ((started.putCustom ((vars.filter Variable.isCustom).map Variable.declared)).get?
          (Template.customPath key) = some v.own ↔
        ∀ w ∈ after, w.id = key → w.own = v.own) := by
  have hmem : ∀ w ∈ v :: after, w ∈ vars.filter Variable.isCustom := fun w hw =>
    hsplit ▸ List.mem_append_right _ hw
  obtain ⟨key, hkey⟩ := exists_get?_keysOf hids (hmem v List.mem_cons_self)
  -- The run numbers the keys like the program, since both have the same custom variables.
  have hkeysOf : keysOf ((vars.filter Variable.isCustom).map Variable.declared) =
      Template.keysOf vars := by
    rw [keysOf, List.map_map]
    rfl
  have hdistinct := nodup_map_key hids hkeys
  have hcustom : (((vars.filter Variable.isCustom).map Variable.declared).map
      Declared.id).Nodup := by
    rw [List.map_map]
    exact hids.sublist (List.filter_sublist.map _)
  have hown : ∀ w : Variable, w.declared.value = v.declared.value ↔ w.own = v.own := fun w => by
    rw [Variable.own, Variable.own, Json.text.injEq]
    rfl
  have hgiven : ((Template.keysOf vars).get? v.declared.id).getD "" = key := by
    show ((Template.keysOf vars).get? v.id).getD "" = key
    rw [hkey, Option.getD_some]
  -- The ids and the keys are each distinct, so at most one later variable meets each name.
  rw [hsplit, List.map_append, List.map_cons] at hcustom hdistinct
  have hid := get?_putUnder_id hcustom hdistinct started
  have hput := get?_putUnder_key hcustom hdistinct started
  rw [List.forall_mem_map] at hid hput
  refine ⟨key, hkey, ?_⟩
  rw [putCustom_eq, hkeysOf, hsplit, List.map_append, List.map_cons]
  constructor
  · refine hid.trans (forall₂_congr fun w hw => ?_)
    obtain ⟨other, hother⟩ := exists_get?_keysOf hids (hmem w (List.mem_cons_of_mem _ hw))
    rw [hown]
    show (((Template.keysOf vars).get? w.id).getD "" = v.id → _) ↔ _
    rw [hother, Option.getD_some, Option.some_inj]
  · simp only [hgiven] at hput
    exact hput.trans (forall₂_congr fun w hw => by rw [hown]; rfl)

end Found

/-- For variables with different ids and different keys a run finds every custom one under its id
and under its key, unless a later variable with another value has the one for its key or the other
for its id. -/
theorem custom_found_iff {items : List Json} (hitems : ∀ j ∈ items, (Variable.ofJson? j).isSome)
    (hids : ((Variable.listOfJson (.list items)).map Variable.id).Nodup)
    (hkeys : ((Template.keysOf (Variable.listOfJson (.list items))).toList.map Prod.snd).Nodup)
    {contact workflow : Json} {contactFields workflowFields : Fields}
    (hcontact : contact.givenFields "items" = .ok contactFields)
    (hworkflow : workflow.givenFields "items" = .ok workflowFields) :
    ∃ started, initial contact (.list items) workflow = .ok started ∧
      ∀ before v after, (Variable.listOfJson (.list items)).filter Variable.isCustom =
        before ++ v :: after →
        ∃ key, (Template.keysOf (Variable.listOfJson (.list items))).get? v.id = some key ∧
          (started.get? (Template.customPath v.id) = some v.own ↔
            ∀ w ∈ after, (Template.keysOf (Variable.listOfJson (.list items))).get?
              w.id = some v.id →
              w.own = v.own) ∧
          (started.get? (Template.customPath key) = some v.own ↔
            ∀ w ∈ after, w.id = key → w.own = v.own) := by
  rw [initial, hcontact, ok_bind, customOf_eq hitems, ok_bind, hworkflow, ok_bind]
  refine ⟨_, rfl, fun before v after hsplit => ?_⟩
  simp only [get?_putWorkflow]
  exact get?_putCustom_iff hids hkeys hsplit _

/-- A well-formed custom variable with a text for its value. -/
def customText (id name value : String) : Variable :=
  ⟨id, name, "text", ⟨[("type", .text "custom"), ("value", .text value)]⟩⟩

/-- Two custom variables of some names, under the ids `x` and `y`. -/
def xAndY (first second : String) : List Json :=
  [declaration "x" first "1" [("type", .text "text")],
    declaration "y" second "2" [("type", .text "text")]]

theorem custom_found_budget :
    ∃ started, initial .null (.list (xAndY "Budget" "Owner")) .null = .ok started ∧
      started.get? "custom.x" = some (.text "1") ∧
        started.get? "custom.budget" = some (.text "1") := by
  have hitems : ∀ j ∈ xAndY "Budget" "Owner", (Variable.ofJson? j).isSome := by decide
  have hnothing : Json.null.givenFields "items" = .ok .empty := rfl
  obtain ⟨started, hstarted, hfound⟩ :=
    custom_found_iff hitems (by decide) (by decide) hnothing hnothing
  obtain ⟨key, hkey, hid, hput⟩ :=
    hfound [] (customText "x" "Budget" "1") [customText "y" "Owner" "2"] rfl
  have hbudget : (Template.keysOf (Variable.listOfJson (.list (xAndY "Budget" "Owner")))).get? "x" =
      some "budget" := by decide
  obtain rfl : key = "budget" := Option.some.inj (hkey.symm.trans hbudget)
  refine ⟨started, hstarted, hid.2 ?_, hput.2 ?_⟩
  · exact List.forall_mem_singleton.2 fun hsame => absurd hsame (by decide)
  · exact List.forall_mem_singleton.2 fun hsame => absurd hsame (by decide)

/-- Under the key of a variable a run finds the value of another one that has this key for its
id. -/
theorem not_all_custom_found :
    ¬ ∀ items : List Json, (∀ j ∈ items, (Variable.ofJson? j).isSome) →
      ((Variable.listOfJson (.list items)).map Variable.id).Nodup →
      ((Template.keysOf (Variable.listOfJson (.list items))).toList.map Prod.snd).Nodup →
      ∀ started, initial .null (.list items) .null = .ok started →
      ∀ v ∈ Variable.listOfJson (.list items), v.isCustom →
      ∀ key, (Template.keysOf (Variable.listOfJson (.list items))).get? v.id = some key →
        started.get? (Template.customPath key) = some v.own ∧
          started.get? (Template.customPath v.id) = some v.own := by
  intro h
  have hstarted : initial .null (.list (xAndY "Y" "Z")) .null =
      .ok ⟨[("custom.x", .text "1"), ("custom.y", .text "2"), ("custom.z", .text "2")]⟩ := rfl
  have hmem : customText "x" "Y" "1" ∈ Variable.listOfJson (.list (xAndY "Y" "Z")) :=
    List.mem_cons_self
  have hfound := (h (xAndY "Y" "Z") (by decide) (by decide) (by decide) _ hstarted _ hmem rfl
    "y" (by decide)).1
  have hsame : some (Json.text "2") = some (Json.text "1") := hfound
  exact absurd (Json.text.inj (Option.some.inj hsame)) (by decide)

end Variables
end Casework
