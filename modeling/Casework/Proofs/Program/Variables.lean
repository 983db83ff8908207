/-
  Casework.Proofs.Program.Variables

  Programs and runs name custom variables alike. A variable has the words of its name for its key,
  and a number behind them when variables with the same words come before it; so a program and a run
  give it the same key exactly if as many such variables come before it in both. Programs pass over
  declarations without a text as type, and runs do not: where such a declaration comes first, the
  run numbers what follows differently.
-/
import Casework.Definition.Reading
import Casework.Program.Variables
import Casework.Proofs.Result

namespace Casework

open Result

-- ============================================================================
-- Entries put one after the other
-- ============================================================================

namespace Entries

variable {α : Type}

theorem putAll_append (entries : Entries α) (pairs more : List (String × α)) :
    entries.putAll (pairs ++ more) = (entries.putAll pairs).putAll more := by
  induction pairs generalizing entries with
  | nil => rfl
  | cons pair rest ih => exact ih (entries.put pair.1 pair.2)

/-- A name for which nothing is put keeps its value. -/
theorem get?_putAll_of_not_mem (entries : Entries α) {pairs : List (String × α)} {name : String}
    (h : name ∉ pairs.map Prod.fst) : (entries.putAll pairs).get? name = entries.get? name := by
  induction pairs generalizing entries with
  | nil => rfl
  | cons pair rest ih =>
    rw [List.map_cons, List.mem_cons, not_or] at h
    rw [putAll_cons, ih _ h.2, get?_put, if_neg h.1]

/-- Of several values under one name the last one stays. -/
theorem get?_ofList_append_cons (pairs more : List (String × α)) {name : String} (value : α)
    (h : name ∉ more.map Prod.fst) :
    (ofList (pairs ++ (name, value) :: more)).get? name = some value := by
  rw [ofList, putAll_append, putAll_cons, get?_putAll_of_not_mem _ h, get?_put, if_pos rfl]

end Entries

-- ============================================================================
-- Friendly keys
-- ============================================================================

namespace Template

/-- The words of the names of variables, which their keys are made of. -/
def bases (vars : List (String × String)) : List String := vars.map fun v => keyBase v.2

/-- The keys of variables that come later take those before into account. -/
theorem keysAfter_append (seen : List String) (vars more : List (String × String)) :
    keysAfter seen (vars ++ more) =
      keysAfter seen vars ++ keysAfter ((bases vars).reverse ++ seen) more := by
  induction vars generalizing seen with
  | nil => rfl
  | cons v rest ih =>
    obtain ⟨id, name⟩ := v
    have hbases : (bases ((id, name) :: rest)).reverse ++ seen =
        (bases rest).reverse ++ keyBase name :: seen := by simp [bases]
    rw [List.cons_append, keysAfter, keysAfter, ih, List.cons_append, hbases]

theorem map_fst_keysAfter (seen : List String) (vars : List (String × String)) :
    (keysAfter seen vars).map Prod.fst = vars.map Prod.fst := by
  induction vars generalizing seen with
  | nil => rfl
  | cons v rest ih => rw [keysAfter, List.map_cons, ih, List.map_cons]

/-- The key of a variable is numbered by the variables with the same words before it. -/
theorem get?_friendlyKeys (before after : List (String × String)) {id : String} (name : String)
    (h : id ∉ after.map Prod.fst) :
    (friendlyKeys (before ++ (id, name) :: after)).get? id =
      some (numberedKey (keyBase name) ((bases before).count (keyBase name))) := by
  rw [friendlyKeys, keysAfter_append, keysAfter, List.append_nil, List.count_reverse]
  exact Entries.get?_ofList_append_cons _ _ _ (by rwa [map_fst_keysAfter])

/-- From the second variable on, a key has a number behind it. -/
theorem toList_numberedKey_succ (base : String) (n : Nat) :
    (numberedKey base (n + 1)).toList = base.toList ++ '_' :: Nat.toDigits 10 (n + 2) := by
  simp [numberedKey, String.toList_append]

/-- Keys from the same words are told apart by their numbers. -/
theorem numberedKey_injective (base : String) : Function.Injective (numberedKey base) := by
  intro m n h
  have hlist := congrArg String.toList h
  -- Only the first has no number; all others have the digits of theirs, from two on.
  cases m with
  | zero =>
    cases n with
    | zero => rfl
    | succ n =>
      rw [toList_numberedKey_succ] at hlist
      simp [numberedKey] at hlist
  | succ m =>
    cases n with
    | zero =>
      rw [toList_numberedKey_succ] at hlist
      simp [numberedKey] at hlist
    | succ n =>
      rw [toList_numberedKey_succ, toList_numberedKey_succ] at hlist
      have hdigits : Nat.toDigits 10 (m + 2) = Nat.toDigits 10 (n + 2) := by
        simpa using List.append_cancel_left hlist
      have hvalue := congrArg (fun cs => Nat.ofDigitChars 10 cs 0) hdigits
      simpa using hvalue

end Template

-- ============================================================================
-- Declarations
-- ============================================================================

namespace Variables

/-- The custom variable that a run takes from a declaration. -/
def custom? (declaration : Json) : Option Declared :=
  (declared? declaration).filter fun d => (d.source.field "type").isTextOf "custom"

/-- Whether the type of a declaration is a text, which programs need and runs do not. -/
def isTyped (declaration : Json) : Bool := (declaration.field "type").isText

/-- The ids and names of custom variables. -/
def named (custom : List Declared) : List (String × String) := custom.map fun d => (d.id, d.name)

/-- Whether a variable is custom can be told if its source is an object, and is told by its type. -/
theorem isCustom_eq_ok {d : Declared} {b : Bool} (h : d.isCustom = .ok b) :
    (∃ fields, d.source = .object fields) ∧ b = (d.source.field "type").isTextOf "custom" := by
  obtain ⟨kind, hkind, rfl⟩ := map_eq_ok_iff.1 h
  cases hsource : d.source with
  | object fields =>
    rw [hsource] at hkind
    cases hkind
    exact ⟨⟨fields, rfl⟩, rfl⟩
  | _ => rw [hsource] at hkind; cases hkind

/-- A run takes the custom variables from all declarations, unless one of them has a source that is
neither an object nor nothing. -/
theorem customOf_eq_ok {items : List Json} {custom : List Declared}
    (h : customOf (.list items) = .ok custom) :
    (∀ j ∈ items, ∀ d, declared? j = some d → ∃ fields, d.source = .object fields) ∧
      custom = items.filterMap custom? := by
  obtain ⟨listed, hlisted, h⟩ := bind_eq_ok_iff.1 h
  cases hlisted
  obtain ⟨hall, rfl⟩ := filterM_eq_ok (fun d b hd => (isCustom_eq_ok hd).2) h
  refine ⟨fun j hj d hd => ?_, List.filter_filterMap ..⟩
  exact (isCustom_eq_ok (hall d (List.mem_filterMap.2 ⟨j, hj, hd⟩))).1

/-- Nothing instead of a source is a source without a type. -/
theorem isTextOf_type_orElse {source : Json}
    (h : ∃ fields, source.orElse (.obj []) = .object fields) :
    ((source.orElse (.obj [])).field "type").isTextOf "custom" =
      source.object?.any fun fields => (fields.value "type").isTextOf "custom" := by
  cases source with
  | object fields =>
    obtain ⟨pairs⟩ := fields
    cases pairs <;> rfl
  | _ =>
    rw [Json.orElse] at h ⊢
    split
    case isFalse => rfl
    case isTrue hgiven =>
      rw [if_pos hgiven] at h
      obtain ⟨fields, hfields⟩ := h
      cases hfields

/-- A program takes the same custom variable from a declaration as a run does, if the declaration is
typed, and none otherwise. -/
theorem custom_ofJson? {j : Json}
    (hsource : ∀ d, declared? j = some d → ∃ fields, d.source = .object fields) :
    ((Variable.ofJson? j).filter Variable.isCustom).map (fun v => (v.id, v.name)) =
      if isTyped j then (custom? j).map (fun d => (d.id, d.name)) else none := by
  cases j with
  | object fields =>
    rw [isTyped, Json.field, Json.isText]
    -- Field by field: the program drops the declaration if the id, the name, the type or the source
    -- is not of its form, the run only for the first two.
    cases hid : (fields.value "id").text? with
    | none => simp [Variable.ofJson?, custom?, declared?, hid]
    | some id =>
      cases hname : (fields.value "name").text? with
      | none => simp [Variable.ofJson?, custom?, declared?, hid, hname]
      | some name =>
        cases hkind : (fields.value "type").text? with
        | none => simp [Variable.ofJson?, hid, hname, hkind]
        | some kind =>
          have hdeclared : declared? (.object fields) = some ⟨id, name,
              (fields.get? "type").getD (.text "custom"),
              (fields.value "source").orElse (.obj [])⟩ := by
            simp [declared?, hid, hname]
          -- A source that counts as absent has no type either way.
          have hcustom := isTextOf_type_orElse (hsource _ hdeclared)
          have hread : Variable.ofJson? (.object fields) =
              (fields.value "source").object?.map fun source => ⟨id, name, kind, source⟩ := by
            cases hfields : (fields.value "source").object? <;>
              simp [Variable.ofJson?, hid, hname, hkind, hfields]
          rw [hread, custom?, hdeclared, Option.filter, hcustom]
          cases (fields.value "source").object? with
          | none => rfl
          | some source =>
            cases htest : (source.value "type").isTextOf "custom" <;>
              simp [Option.filter, Variable.isCustom, htest]
  | _ => simp [Variable.ofJson?, custom?, declared?]

/-- A program takes its custom variables from the typed declarations. -/
theorem keysOf_listOfJson {items : List Json}
    (hsource : ∀ j ∈ items, ∀ d, declared? j = some d → ∃ fields, d.source = .object fields) :
    Template.keysOf (Variable.listOfJson (.list items)) =
      keysOf ((items.filter isTyped).filterMap custom?) := by
  have hnamed : ((Variable.listOfJson (.list items)).filter Variable.isCustom).map
      (fun v => (v.id, v.name)) =
        ((items.filter isTyped).filterMap custom?).map fun d => (d.id, d.name) := by
    rw [Variable.listOfJson, List.filter_filterMap, List.map_filterMap, List.map_filterMap,
      List.filterMap_filter]
    exact List.filterMap_congr fun j hj => custom_ofJson? (hsource j hj)
  rw [Template.keysOf, hnamed, keysOf]

-- ============================================================================
-- The keys of programs and of runs
-- ============================================================================

/-- Whether a declaration gives a custom variable whose name has these words. -/
def hasBase (base : String) (declaration : Json) : Bool :=
  (custom? declaration).any fun d => Template.keyBase d.name == base

/-- The key of the last custom variable with its id, by the declarations before it. -/
theorem get?_keysOf {before after : List Json} {j : Json} {d : Declared} (hd : custom? j = some d)
    (hlast : ∀ k ∈ after, ∀ e, custom? k = some e → e.id ≠ d.id) :
    (keysOf ((before ++ j :: after).filterMap custom?)).get? d.id =
      some (Template.numberedKey (Template.keyBase d.name)
        (before.countP (hasBase (Template.keyBase d.name)))) := by
  have hcount : (Template.bases ((before.filterMap custom?).map fun d => (d.id, d.name))).count
      (Template.keyBase d.name) = before.countP (hasBase (Template.keyBase d.name)) := by
    rw [Template.bases, List.map_map, List.map_filterMap, List.count_filterMap]
    refine List.countP_congr fun k _ => ?_
    cases hk : custom? k <;> simp [hasBase, hk]
  rw [keysOf, List.filterMap_append, List.filterMap_cons_some hd, List.map_append, List.map_cons,
    Template.get?_friendlyKeys, hcount]
  intro hmem
  obtain ⟨⟨id, name⟩, hpair, rfl⟩ := List.mem_map.1 hmem
  obtain ⟨e, he, hsame⟩ := List.mem_map.1 hpair
  obtain ⟨k, hk, hke⟩ := List.mem_filterMap.1 he
  exact hlast k hk e hke (congrArg Prod.fst hsame)

/-- As many of some declarations fulfil a condition as of the typed ones exactly if those that do
are typed. -/
theorem countP_typed_eq_iff (p : Json → Bool) (before : List Json) :
    before.countP p = (before.filter isTyped).countP p ↔ ∀ k ∈ before, p k → isTyped k := by
  rw [List.countP_eq_countP_filter_add before p isTyped, Nat.add_eq_left, List.countP_eq_zero]
  constructor
  · intro h k hk hp
    by_contra hnot
    exact h k (List.mem_filter.2 ⟨hk, by simp [hnot]⟩) hp
  · intro h k hk hp
    obtain ⟨hk, hnot⟩ := List.mem_filter.1 hk
    simp [h k hk hp] at hnot

/-- If every custom variable of a run comes from a typed declaration, programs and runs have the
same keys. In any case the last custom variable with its id has the same key in both, if its
declaration is typed, exactly if no declaration without a type gives a variable with the same words
before. -/
theorem friendlyKeys_agree_iff {items : List Json} {custom : List Declared}
    (h : customOf (.list items) = .ok custom) :
    ((∀ j ∈ items, (custom? j).isSome → isTyped j) →
        Template.keysOf (Variable.listOfJson (.list items)) = keysOf custom) ∧
      ∀ before j after d, items = before ++ j :: after → custom? j = some d → isTyped j →
        (∀ k ∈ after, ∀ e, custom? k = some e → e.id ≠ d.id) →
        ∃ key, (Template.keysOf (Variable.listOfJson (.list items))).get? d.id = some key ∧
          ((keysOf custom).get? d.id = some key ↔
            ∀ k ∈ before, hasBase (Template.keyBase d.name) k → isTyped k) := by
  obtain ⟨hsource, rfl⟩ := customOf_eq_ok h
  rw [keysOf_listOfJson hsource]
  constructor
  -- All custom variables are typed, so the program passes over none of them.
  · intro htyped
    congr 1
    rw [List.filterMap_filter]
    refine List.filterMap_congr fun j hj => ?_
    cases hd : custom? j with
    | none => simp
    | some d => rw [if_pos (htyped j hj (by rw [hd]; rfl))]
  · rintro before j after d rfl hd htyped hlast
    -- The key of the program counts those before that have the same words and are typed, the key of
    -- the run all of them.
    have hprogram : (keysOf (((before ++ j :: after).filter isTyped).filterMap custom?)).get? d.id =
        some (Template.numberedKey (Template.keyBase d.name)
          ((before.filter isTyped).countP (hasBase (Template.keyBase d.name)))) := by
      rw [List.filter_append, List.filter_cons_of_pos htyped]
      exact get?_keysOf hd fun k hk => hlast k (List.mem_filter.1 hk).1
    refine ⟨_, hprogram, ?_⟩
    rw [get?_keysOf hd hlast, Option.some_inj, (Template.numberedKey_injective _).eq_iff,
      countP_typed_eq_iff]

/-- The declaration of a custom variable. -/
def declaration (id name value : String) (more : List (String × Json)) : Json :=
  .obj (("id", .text id) :: ("name", .text name) ::
    ("source", .obj [("type", .text "custom"), ("value", .text value)]) :: more)

/-- A custom variable of some name that is declared without a type, and a typed one behind it. -/
def untypedFirst (name : String) : List Json :=
  [declaration "a" name "1" [], declaration "b" "Name" "2" [("type", .text "text")]]

theorem friendlyKeys_agree_strangers :
    customOf (.list (untypedFirst "Order total")) =
        .ok ((untypedFirst "Order total").filterMap custom?) ∧
      ∃ key, (Template.keysOf (Variable.listOfJson (.list (untypedFirst "Order total")))).get? "b" =
          some key ∧
        (keysOf ((untypedFirst "Order total").filterMap custom?)).get? "b" = some key := by
  have hcustom : customOf (.list (untypedFirst "Order total")) =
      .ok ((untypedFirst "Order total").filterMap custom?) := rfl
  obtain ⟨key, hprogram, hrun⟩ := (friendlyKeys_agree_iff hcustom).2
    [declaration "a" "Order total" "1" []] (declaration "b" "Name" "2" [("type", .text "text")]) []
    ⟨"b", "Name", .text "text", .obj [("type", .text "custom"), ("value", .text "2")]⟩
    rfl rfl rfl (by simp)
  exact ⟨hcustom, key, hprogram, hrun.2 (by decide)⟩

/-- Of two variables of one name, the first of which is declared without a type, the second has no
number behind its key in a program, and has one in a run. -/
theorem not_all_friendlyKeys_agree :
    ¬ ∀ items custom, customOf (.list items) = .ok custom →
      ∀ id key, (Template.keysOf (Variable.listOfJson (.list items))).get? id = some key →
        (keysOf custom).get? id = some key := by
  intro h
  have hcustom : customOf (.list (untypedFirst "Name")) =
      .ok ((untypedFirst "Name").filterMap custom?) := rfl
  have hprogram : (Template.keysOf (Variable.listOfJson (.list (untypedFirst "Name")))).get? "b" =
      some "name" := by decide
  have hrun : (keysOf ((untypedFirst "Name").filterMap custom?)).get? "b" = some "name_2" := by
    decide
  have hsame := h _ _ hcustom "b" "name" hprogram
  rw [hrun] at hsame
  exact absurd hsame (by decide)

end Variables
end Casework
