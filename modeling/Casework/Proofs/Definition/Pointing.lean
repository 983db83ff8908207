/-
  Casework.Proofs.Definition.Pointing

  Paths point at the document. Every issue of a document that gives no program concerns one part of
  it, and its path leads to this part or to a field below it, with one exception: a status is shown
  in the position it has among the well-formed statuses when these are put in order, which need not
  be the position it was authored in. If the statuses of a document are well-formed and in order,
  all paths point at it.
-/
import Casework.Program.Lowering
import Casework.Proofs.Definition.Trail
import Casework.Proofs.Number.Sorting
import Mathlib.Data.List.Basic

namespace Casework

-- ============================================================================
-- Where a status was authored
-- ============================================================================

namespace Status

/-- The well-formed statuses of a list, each with the position it was authored in. -/
def positioned (items : List Json) : List (Status × Nat) :=
  items.zipIdx.filterMap fun item => (ofJson? item.1).map fun s => (s, item.2)

/-- The statuses that are read from a document, each with the position it was authored in. -/
def origins : Json → List (Status × Nat)
  | .list items => sortByOrder (fun origin => origin.1.order) (positioned items)
  | _ => []

/-- The status that was authored in a position is read in another one. -/
def Displaced (j : Json) (n : Nat) : Prop := ∃ k s, (origins j)[k]? = some (s, n) ∧ k ≠ n

/-- The statuses with their places are those that can be read, in the same order. -/
theorem map_fst_positioned (items : List Json) :
    (positioned items).map Prod.fst = items.filterMap ofJson? := by
  have hzip : items = items.zipIdx.map Prod.fst := (List.zipIdx_map_fst 0 items).symm
  rw [hzip, List.filterMap_map, positioned, List.map_filterMap, ← hzip]
  congr 1
  funext item
  cases h : ofJson? item.1 <;> simp [h]

/-- The statuses that are read are those of the origins, in the same order. -/
theorem map_fst_origins (j : Json) : (origins j).map Prod.fst = listOfJson j := by
  cases j with
  | list items =>
    rw [origins, listOfJson, ← map_fst_positioned]
    exact map_sortByOrder Prod.fst Status.order _
  | _ => rfl

/-- A status has the place at which it is read. -/
theorem mem_positioned_iff {items : List Json} {s : Status} {n : Nat} :
    (s, n) ∈ positioned items ↔ ∃ item, items[n]? = some item ∧ ofJson? item = some s := by
  rw [positioned, List.mem_filterMap]
  constructor
  · rintro ⟨⟨item, k⟩, hmem, hread⟩
    obtain ⟨read, hitem, hpair⟩ := Option.map_eq_some_iff.1 hread
    cases hpair
    exact ⟨item, List.mem_zipIdx_iff_getElem?.1 hmem, hitem⟩
  · rintro ⟨item, hitem, hread⟩
    exact ⟨(item, n), List.mem_zipIdx_iff_getElem?.2 hitem, by rw [hread]; rfl⟩

/-- A status that is read was authored in the position of its origin. -/
theorem authored_of_origins {j : Json} {k n : Nat} {s : Status}
    (h : (origins j)[k]? = some (s, n)) :
    ∃ items item, j = .list items ∧ items[n]? = some item ∧ ofJson? item = some s := by
  cases j with
  | list items =>
    have hmem := List.mem_of_getElem? h
    rw [origins, mem_sortByOrder, mem_positioned_iff] at hmem
    obtain ⟨item, hitem, hread⟩ := hmem
    exact ⟨items, item, rfl, hitem, hread⟩
  | _ => cases h

/-- No two statuses that are read were authored in the same position. -/
theorem nodup_positions (j : Json) : ((origins j).map Prod.snd).Nodup := by
  cases j with
  | list items =>
    have hzip : items.zipIdx.Pairwise fun a b => a.2 ≠ b.2 := by
      rw [← List.pairwise_map, List.zipIdx_map_snd]
      exact List.nodup_range' 1
    have hpositioned : (positioned items).Pairwise fun a b => a.2 ≠ b.2 := by
      refine hzip.filterMap _ fun a b hne s hs t ht => ?_
      obtain ⟨_, -, rfl⟩ := Option.map_eq_some_iff.1 hs
      obtain ⟨_, -, rfl⟩ := Option.map_eq_some_iff.1 ht
      exact hne
    have hperm := sortByOrder_perm (fun origin => origin.1.order) (positioned items)
    exact (hperm.map Prod.snd).nodup_iff.2 (List.pairwise_map.2 hpositioned)
  | _ => exact List.nodup_nil

/-- A status is displaced if the position it is read in is not its own. -/
theorem displaced_iff {j : Json} {k n : Nat} {s : Status} (h : (origins j)[k]? = some (s, n)) :
    Displaced j n ↔ k ≠ n := by
  constructor
  · rintro ⟨l, t, hl, hne⟩ rfl
    have hpositions : ((origins j).map Prod.snd)[l]? = ((origins j).map Prod.snd)[k]? := by
      rw [List.getElem?_map, List.getElem?_map, h, hl]
      rfl
    have hlt : l < ((origins j).map Prod.snd).length := by
      rw [List.length_map]
      exact (List.getElem?_eq_some_iff.1 hl).1
    exact hne ((List.getElem?_inj hlt (nodup_positions j)).1 hpositions)
  · exact fun hne => ⟨k, s, h, hne⟩

/-- If every item is a status, each one has the place at which it comes. -/
theorem positioned_eq_zipIdx {items : List Json} {statuses : List Status}
    (hread : items.map ofJson? = statuses.map some) : positioned items = statuses.zipIdx := by
  have haligned : ∀ index, (items.zipIdx index).filterMap
      (fun item => (ofJson? item.1).map fun s => (s, item.2)) = statuses.zipIdx index := by
    -- By induction on the items; the place of the first is arbitrary, since it grows.
    induction items generalizing statuses with
    | nil =>
      obtain rfl := List.map_eq_nil_iff.1 hread.symm
      exact fun index => rfl
    | cons item items ih =>
      cases statuses with
      | nil => cases hread
      | cons s statuses =>
        obtain ⟨hitem, hrest⟩ := List.cons.inj hread
        intro index
        rw [List.zipIdx_cons, List.filterMap_cons_some (b := (s, index))
          (by rw [hitem]; rfl), ih hrest]
        rfl
  exact haligned 0

/-- In a list of well-formed statuses that are in order, none is displaced. -/
theorem not_displaced_of_pairwise {items : List Json} {statuses : List Status}
    (hread : items.map ofJson? = statuses.map some)
    (horder : statuses.Pairwise fun s t => t.order.lt s.order = false) (n : Nat) :
    ¬ Displaced (.list items) n := by
  have hpairs : statuses.zipIdx.Pairwise fun a b => b.1.order.lt a.1.order = false := by
    have hzip : (statuses.zipIdx.map Prod.fst).Pairwise fun s t => t.order.lt s.order = false := by
      rwa [List.zipIdx_map_fst]
    exact List.pairwise_map.1 hzip
  have horigins : origins (.list items) = statuses.zipIdx := by
    rw [origins, positioned_eq_zipIdx hread, sortByOrder_of_pairwise hpairs]
  rintro ⟨k, s, horigin, hne⟩
  rw [horigins, List.getElem?_zipIdx, Nat.zero_add] at horigin
  obtain ⟨t, -, hpair⟩ := Option.map_eq_some_iff.1 horigin
  cases hpair
  exact hne rfl

end Status

-- ============================================================================
-- What an issue concerns
-- ============================================================================

/-- An issue of a document was found with the part at the end of a way. -/
inductive Concerns : Json → Issue → List Hop → Prop where
  /-- The document is no object. -/
  | document {j : Json} (hobject : ∀ fields, j ≠ .object fields) :
      Concerns j { problem := .definitionNotObject, place := .top } []
  /-- The part violates the grammar of steps. -/
  | shape {fields : Fields} {issue : Issue} {way : List Hop}
      (hviolates : Json.Violates .steps fields.steps way issue.problem)
      (hplace : issue.place = ⟨.field "steps" :: way⟩) :
      Concerns (.object fields) issue (.field "steps" :: way)
  /-- No statuses are read. -/
  | noStatuses {fields : Fields} (hnone : Status.listOfJson (fields.value "statuses") = []) :
      Concerns (.object fields) { problem := .noStatuses, place := Place.top.field "statuses" }
        [.field "statuses"]
  /-- The check of the status that was authored there found it. -/
  | status {fields : Fields} {issue : Issue} {k n : Nat} {item : Json} {s : Status}
    {ids : List String}
      {orders : List Number}
      (hselect : (Json.object fields).follow? [.field "statuses", .item n] = some item)
      (hread : Status.ofJson? item = some s)
      (horigin : (Status.origins (fields.value "statuses"))[k]? = some (s, n))
      (hissue : issue ∈ Validation.statusIssues ids orders k s) :
      Concerns (.object fields) issue [.field "statuses", .item n]
  /-- The trigger names a status that is not declared. -/
  | trigger {fields : Fields} {initial : String}
      (hinitial : (Trigger.ofJson (fields.value "trigger")).initialStatus = some initial) :
      Concerns (.object fields)
        { problem := .undeclaredStatus initial, place :=
          (Place.top.field "trigger").field "initialStatus" }
        [.field "trigger"]
  /-- The check of the step, track or action that was read there found it. -/
  | node {fields : Fields} {d : Definition} {issue : Issue} {rest : List Hop}
    {node : Node} {part : Json}
      (hread : Definition.ofJson (.object fields) = .ok d)
      (htrail : Node.Trail (.top d.steps) (.object fields) (.field "steps" :: rest) node part)
      (hraises : Validation.Raises (.of d) ⟨.field "steps" :: rest⟩ node issue) :
      Concerns (.object fields) issue (.field "steps" :: rest)

/-- A way leads to a status that is not read in the position it was authored in. -/
def Json.Displaces (j : Json) (way : List Hop) : Prop :=
  ∃ n, way = [.field "statuses", .item n] ∧ Status.Displaced (j.field "statuses") n

/-- Only ways into the statuses can be displaced. -/
theorem Json.not_displaces_of_ne {j : Json} {name : String} {rest : List Hop}
    (h : name ≠ "statuses") :
    ¬ j.Displaces (.field name :: rest) := by
  rintro ⟨n, hway, -⟩
  exact h (Hop.field.inj (List.cons.inj hway).1)

/-- The way to a status is displaced if the status has another place in the order. -/
theorem Json.displaces_status_iff {j : Json} {n : Nat} :
    j.Displaces [.field "statuses", .item n] ↔ Status.Displaced (j.field "statuses") n := by
  constructor
  · rintro ⟨k, hway, h⟩
    cases hway
    exact h
  · exact fun h => ⟨n, rfl, h⟩

-- ============================================================================
-- Statuses
-- ============================================================================

namespace Validation

/-- An issue of the statuses is one of a certain status, with its place in the order and what was
seen before it. -/
theorem exists_of_mem_statusesIssues {ids : List String} {orders : List Number} {index : Nat}
    {statuses : List Status} {issue : Issue}
    (h : issue ∈ statusesIssues ids orders index statuses) :
    ∃ (k : Nat) (s : Status) (ids : List String) (orders : List Number),
      statuses[k]? = some s ∧ issue ∈ statusIssues ids orders (index + k) s := by
  induction statuses generalizing ids orders index with
  | nil => exact absurd h List.not_mem_nil
  | cons s rest ih =>
    rcases List.mem_append.1 h with h | h
    · exact ⟨0, s, ids, orders, rfl, h⟩
    · obtain ⟨k, t, ids, orders, ht, hissue⟩ := ih h
      exact ⟨k + 1, t, ids, orders, ht, by rwa [Nat.add_right_comm] at hissue⟩

/-- The issues with a status are placed in a field of the status in the position that is given. -/
theorem place_of_mem_statusIssues {ids : List String} {orders : List Number} {k : Nat} {s : Status}
    {issue : Issue} (h : issue ∈ statusIssues ids orders k s) :
    ∃ name, issue.place = (Place.top.item "statuses" k).field name := by
  rcases List.mem_append.1 h with h | h
  · split at h
    · exact ⟨_, by rw [List.mem_singleton.1 h]⟩
    · split at h
      · exact ⟨_, by rw [List.mem_singleton.1 h]⟩
      · exact absurd h List.not_mem_nil
  · split at h
    · exact ⟨_, by rw [List.mem_singleton.1 h]⟩
    · exact absurd h List.not_mem_nil

/-- The place of an issue with a status points at the status in this position only. -/
theorem pointsAt_status_iff {ids : List String} {orders : List Number} {k n : Nat} {s : Status}
    {issue : Issue} (h : issue ∈ statusIssues ids orders k s) :
    issue.place.PointsAt [.field "statuses", .item n] ↔ k = n := by
  obtain ⟨name, hplace⟩ := place_of_mem_statusIssues h
  rw [hplace]
  constructor
  · rintro ⟨names, hhops⟩
    simp only [Place.field, Place.item, Place.top, List.nil_append, List.cons_append,
      List.cons.injEq,
      Hop.item.injEq] at hhops
    exact hhops.2.1
  · rintro rfl
    exact (Place.PointsAt.refl _).field name

end Validation

-- ============================================================================
-- One part for each issue
-- ============================================================================

/-- A way is empty or ends in a position. -/
def EndsInItem (way : List Hop) : Prop := way = [] ∨ ∃ front k, way = front ++ [.item k]

/-- A trail through a definition ends in an item. -/
theorem Node.Trail.endsInItem {node last : Node} {j part : Json} {way : List Hop}
    (h : Node.Trail node j way last part) : EndsInItem way := by
  induction h with
  | here => exact .inl rfl
  | @next _ _ _ _ _ _ name k rest _ _ _ _ ih =>
    rcases ih with rfl | ⟨front, l, rfl⟩
    · exact .inr ⟨[.field name], k, rfl⟩
    · exact .inr ⟨.field name :: .item k :: front, l, rfl⟩

/-- What comes behind a way and ends in a position is nothing if it consists of fields. -/
theorem eq_nil_of_endsInItem_append {way more : List Hop} (hends : EndsInItem (way ++ more))
    (hmore : ∀ hop ∈ more, ∃ name, hop = .field name) : more = [] := by
  rcases more.eq_nil_or_concat with hnil | ⟨front, hop, rfl⟩
  · exact hnil
  · obtain ⟨name, rfl⟩ := hmore hop (by simp)
    rcases hends with hnil | ⟨ahead, k, heq⟩
    · simp at hnil
    · rw [List.concat_eq_append, ← List.append_assoc] at heq
      cases (List.append_inj' heq rfl).2

theorem Place.PointsAt.isPrefix_eq {way more : List Hop} {names others : List String}
    (hends : EndsInItem (way ++ more)) (hfields : names.map Hop.field = more ++ others.map .field) :
    more = [] := by
  refine eq_nil_of_endsInItem_append hends fun hop hmem => ?_
  have hmem' : hop ∈ names.map Hop.field := hfields ▸ List.mem_append_left _ hmem
  obtain ⟨name, -, rfl⟩ := List.mem_map.1 hmem'
  exact ⟨name, rfl⟩

/-- A place points at one way only that is empty or ends in a position. -/
theorem Place.PointsAt.eq {place : Place} {way other : List Hop} (h : place.PointsAt way)
    (h' : place.PointsAt other) (hends : EndsInItem way) (hends' : EndsInItem other) :
    way = other := by
  obtain ⟨names, hhops⟩ := h
  obtain ⟨names', hhops'⟩ := h'
  rcases List.append_eq_append_iff.1 (hhops.symm.trans hhops') with ⟨more, rfl, hmore⟩ |
    ⟨more, rfl, hmore⟩
  · rw [isPrefix_eq hends' hmore, List.append_nil]
  · rw [isPrefix_eq hends hmore, List.append_nil]

/-- The place of an issue begins like the way to the part that it concerns. -/
theorem Concerns.head_eq {fields : Fields} {issue : Issue} {way : List Hop}
    (h : Concerns (.object fields) issue way) : issue.place.hops.head? = way.head? := by
  cases h with
  | document hobject => exact absurd rfl (hobject fields)
  | shape _ hplace => rw [hplace, List.head?_cons]
  | noStatuses => rfl
  | status _ _ _ hissue =>
    obtain ⟨name, hplace⟩ := Validation.place_of_mem_statusIssues hissue
    rw [hplace]
    rfl
  | trigger => rfl
  | node _ _ hraises =>
    obtain ⟨names, hhops⟩ := hraises.pointsAt
    rw [hhops]
    rfl

/-- In a definition that was read nothing violates the grammar. -/
theorem Definition.not_violates_of_ofJson {fields : Fields} {d : Definition}
    (h : ofJson (.object fields) = .ok d) {way : List Hop} {problem : Problem} :
    ¬ Json.Violates .steps fields.steps way problem :=
  Json.isSteps_iff_clean.1 ((issues_eq_nil_iff_isSteps fields).1 (ofJson_eq_ok_iff.1 h).1) way
    problem

/-- No status stands where there are none. -/
theorem Validation.not_mem_statusIssues {ids : List String} {orders : List Number} {k : Nat}
    {s : Status} :
    { problem := .noStatuses, place := Place.top.field "statuses" } ∉ statusIssues ids
      orders k s := by
  intro h
  obtain ⟨name, hplace⟩ := place_of_mem_statusIssues h
  cases hplace

/-- An issue of an object concerns one part of it: what the issue is about, and where it points,
leave no choice. -/
theorem Concerns.eq_of_object {fields : Fields} {issue : Issue} {way other : List Hop}
    (h : Concerns (.object fields) issue way) (h' : Concerns (.object fields) issue other) :
    way = other := by
  -- Issues of different kinds differ in their problems or in where they point, so both ways of
  -- concerning are of one kind.
  have hhead := h.head_eq.symm.trans h'.head_eq
  cases h with
  | document hobject => exact absurd rfl (hobject fields)
  | shape hviolates hplace =>
    cases h' with
    | document hobject => exact absurd rfl (hobject fields)
    | shape _ hplace' => exact congrArg Place.hops (hplace.symm.trans hplace')
    | node hread => exact absurd hviolates (Definition.not_violates_of_ofJson hread)
    | _ => simp at hhead
  | noStatuses hnone =>
    cases h' with
    | noStatuses => rfl
    | status _ _ _ hissue => exact absurd hissue Validation.not_mem_statusIssues
    | _ => simp at hhead
  | status hselect hread horigin hissue =>
    cases h' with
    | document hobject => exact absurd rfl (hobject fields)
    | noStatuses => exact absurd hissue Validation.not_mem_statusIssues
    | status _ _ horigin' hissue' =>
      obtain ⟨name, hplace⟩ := Validation.place_of_mem_statusIssues hissue
      obtain ⟨name', hplace'⟩ := Validation.place_of_mem_statusIssues hissue'
      cases hplace.symm.trans hplace'
      cases horigin.symm.trans horigin'
      rfl
    | _ => simp at hhead
  | trigger =>
    cases h' with
    | trigger => rfl
    | _ => simp at hhead
  | node hread htrail hraises =>
    cases h' with
    | document hobject => exact absurd rfl (hobject fields)
    | shape hviolates => exact absurd hviolates (Definition.not_violates_of_ofJson hread)
    | node hread' htrail' hraises' =>
      exact hraises.pointsAt.eq hraises'.pointsAt htrail.endsInItem htrail'.endsInItem
    | _ => simp at hhead

/-- An issue concerns one part only. -/
theorem Concerns.eq {j : Json} {issue : Issue} {way other : List Hop} (h : Concerns j issue way)
    (h' : Concerns j issue other) : way = other := by
  cases j with
  | object fields => exact h.eq_of_object h'
  | _ =>
    cases h
    cases h'
    rfl

-- ============================================================================
-- All issues
-- ============================================================================

/-- An issue concerns a part of a document, and points at it unless this is a displaced status. -/
def Located (j : Json) (issue : Issue) : Prop :=
  ∃ way, Concerns j issue way ∧ (issue.place.PointsAt way ↔ ¬ j.Displaces way)

section Object

variable {fields : Fields} {issue : Issue}

/-- An issue that points at a part outside the statuses is located if it concerns this part. -/
theorem located_of_ne {name : String} {rest : List Hop}
    (hconcerns : Concerns (.object fields) issue (.field name :: rest))
    (hpoints : issue.place.PointsAt (.field name :: rest)) (hname : name ≠ "statuses") :
    Located (.object fields) issue :=
  ⟨_, hconcerns, fun _ => Json.not_displaces_of_ne hname, fun _ => hpoints⟩

/-- The issues of a definition that cannot be read each concern a part and point at it. -/
theorem located_of_refused {e : CompileError} (h : Definition.ofJson (.object fields) = .error e)
    (hmem : issue ∈ e.issues) : Located (.object fields) issue := by
  obtain ⟨way, hviolates, hplace⟩ :=
    ((Definition.reports_of_ofJson h).mem_iff _ _).1 ⟨issue, hmem, rfl, rfl⟩
  exact located_of_ne (.shape hviolates hplace) (hplace ▸ .refl _) (by simp)

/-- Every issue of the statuses concerns the status that raises it, and points at it unless the
status is displaced. -/
theorem located_of_mem_checkStatuses
    (hmem : issue ∈ Validation.checkStatuses (Status.listOfJson (fields.value "statuses"))) :
    Located (.object fields) issue := by
  rw [Validation.checkStatuses] at hmem
  split at hmem
  -- There is no status at all.
  case isTrue hempty =>
    obtain rfl := List.mem_singleton.1 hmem
    refine ⟨_, .noStatuses (List.isEmpty_iff.1 hempty), fun _ => ?_, fun _ => .refl _⟩
    rintro ⟨n, ⟨⟩, -⟩
  -- The issue counts the statuses in order; the part that it concerns is where the status was
  -- written.
  case isFalse =>
    obtain ⟨k, s, ids, orders, hs, hissue⟩ := Validation.exists_of_mem_statusesIssues hmem
    rw [← Status.map_fst_origins, List.getElem?_map] at hs
    obtain ⟨⟨s, n⟩, horigin, rfl⟩ := Option.map_eq_some_iff.1 hs
    rw [Nat.zero_add] at hissue
    obtain ⟨items, item, hlist, hitem, hread⟩ := Status.authored_of_origins horigin
    have hselect := Node.follow?_item (Entries.get?_of_value_eq hlist (by simp)) hitem
    refine ⟨_, .status hselect hread horigin hissue, ?_⟩
    rw [Validation.pointsAt_status_iff hissue, Json.displaces_status_iff]
    exact ((Status.displaced_iff horigin).not.trans not_not).symm

/-- Every issue of the trigger concerns the trigger. -/
theorem located_of_mem_checkTrigger {ids : List String}
    (hmem : issue ∈ Validation.checkTrigger ids (Trigger.ofJson (fields.value "trigger"))) :
    Located (.object fields) issue := by
  rw [Validation.checkTrigger] at hmem
  split at hmem
  case h_1 initial hinitial =>
    split at hmem
    · exact absurd hmem List.not_mem_nil
    · obtain rfl := List.mem_singleton.1 hmem
      exact located_of_ne (.trigger hinitial)
        ((Place.PointsAt.refl (Place.top.field "trigger")).field _)
        (by simp)
  case h_2 => exact absurd hmem List.not_mem_nil

/-- Every issue of the steps concerns the step, action or track that raises it, and points at it. -/
theorem located_of_mem_checkSteps {d : Definition}
    (hread : Definition.ofJson (.object fields) = .ok d)
    (hmem : issue ∈ (Validation.checkSteps (.of d) ⟨[], []⟩ .top 0 d.steps).1) :
    Located (.object fields) issue := by
  obtain ⟨way, node, hbelow, hraises⟩ := Validation.found_of_mem_steps hmem
  obtain ⟨part, htrail⟩ := hbelow.trail (.top (Definition.allReadFrom_of_ofJson hread))
  cases hbelow with
  | here => cases hraises
  | next hhas _ =>
    cases hhas with
    | first => exact located_of_ne (.node hread htrail hraises) hraises.pointsAt (by simp)

end Object

/-- The issues with which compilation fails are those of the definition. -/
theorem issues_of_compile {d : Definition} {e : CompileError} (h : d.compile = .error (.issues e)) :
    e.issues = d.issues := by
  rw [Definition.compile] at h
  split at h
  · split at h <;> cases h
  · cases h
    rfl

/-- Each issue with which compilation fails concerns a part of the document, and points at it unless
this is a status that is displaced. -/
theorem located_of_compile {j : Json} {e : CompileError} (h : compile j = .error (.issues e)) :
    ∀ issue ∈ e.issues, Located j issue := by
  intro issue hmem
  rw [compile] at h
  cases j with
  | object fields =>
    -- The issues come from reading, or else from the statuses, the trigger and the steps.
    cases hread : Definition.ofJson (.object fields) with
    | error refused =>
      rw [hread] at h
      cases h
      exact located_of_refused hread hmem
    | ok d =>
      rw [hread] at h
      rw [issues_of_compile h, Definition.issues, List.mem_append, List.mem_append] at hmem
      obtain ⟨-, hd⟩ := Definition.ofJson_eq_ok_iff.1 hread
      rcases hmem with (hmem | hmem) | hmem
      · subst hd
        exact located_of_mem_checkStatuses hmem
      · subst hd
        exact located_of_mem_checkTrigger hmem
      · exact located_of_mem_checkSteps hread hmem
  -- Not an object at all: the issue is about the document.
  | _ =>
    cases h
    obtain rfl := List.mem_singleton.1 hmem
    refine ⟨[], .document (by simp), fun _ => ?_, fun _ => .refl _⟩
    rintro ⟨n, ⟨⟩, -⟩

/-- Every issue of a document that gives no program concerns one part of the document. Its path
leads to this part or to a field below it, unless the part is a status that is not read in the
position it was authored in. So all paths point at their parts if all statuses are well-formed and
in order. -/
theorem issues_point_of_compile {j : Json} {e : CompileError} (h : compile j = .error (.issues e)) :
    (∀ issue ∈ e.issues, ∃ way, Concerns j issue way ∧
      (∀ other, Concerns j issue other → other = way) ∧
      (issue.place.PointsAt way ↔ ¬ j.Displaces way)) ∧
      ∀ (items : List Json) (statuses : List Status), j.field "statuses" = .list items →
        items.map Status.ofJson? = statuses.map some →
        (statuses.Pairwise fun s t => t.order.lt s.order = false) →
        ∀ issue ∈ e.issues, ∃ way, Concerns j issue way ∧ issue.place.PointsAt way := by
  constructor
  · intro issue hmem
    obtain ⟨way, hconcerns, hpoints⟩ := located_of_compile h issue hmem
    exact ⟨way, hconcerns, fun other hother => hother.eq hconcerns, hpoints⟩
  · intro items statuses hlist hread horder issue hmem
    obtain ⟨way, hconcerns, hpoints⟩ := located_of_compile h issue hmem
    refine ⟨way, hconcerns, hpoints.2 ?_⟩
    rintro ⟨n, -, hdisplaced⟩
    rw [hlist] at hdisplaced
    exact Status.not_displaced_of_pairwise hread horder n hdisplaced

/-- A document with two statuses. The second one comes first in order and has no id. -/
def unordered : Json :=
  .obj [("statuses", .list [
    .obj [("id", .text "open"), ("label", .text "Open"), ("order", .int 2)],
    .obj [("id", .text ""), ("label", .text "New"), ("order", .int 1)]])]

/-- The issue with the second status, shown at the first one. -/
def unorderedIssue : Issue :=
  { problem := .noStatusId, place := (Place.top.item "statuses" 0).field "id" }

theorem compile_unordered : compile unordered = .error (.issues ⟨[unorderedIssue]⟩) := by
  obtain ⟨d, hread, hstatuses⟩ : ∃ d, Definition.ofJson unordered = .ok d ∧
      d.statuses = [⟨"", "New", .whole 1, none⟩, ⟨"open", "Open", .whole 2, none⟩] := by
    refine ⟨_, rfl, ?_⟩
    show sortByOrder Status.order
      [⟨"open", "Open", .whole 2, none⟩, ⟨"", "New", .whole 1, none⟩] = _
    exact sortByOrder_pair rfl
  have hissues : d.issues = [unorderedIssue] := by
    cases hread
    rw [Definition.issues, Definition.statusIds, hstatuses]
    rfl
  rw [compile, hread]
  dsimp only
  rw [Definition.compile, hissues]
  rfl

theorem concerns_unordered : Concerns unordered unorderedIssue [.field "statuses", .item 1] := by
  refine @Concerns.status _ _ 0 1 _ ⟨"", "New", .whole 1, none⟩ [] [] rfl rfl ?_ ?_
  · show (sortByOrder (fun origin : Status × Nat => origin.1.order)
      [(⟨"open", "Open", .whole 2, none⟩, 0), (⟨"", "New", .whole 1, none⟩, 1)])[0]? = _
    rw [sortByOrder_pair rfl]
    rfl
  · exact List.mem_singleton.2 rfl

theorem issues_point_unordered : compile unordered = .error (.issues ⟨[unorderedIssue]⟩) ∧
    ∃ way, Concerns unordered unorderedIssue way ∧
      (unorderedIssue.place.PointsAt way ↔ ¬ unordered.Displaces way) := by
  obtain ⟨hall, -⟩ := issues_point_of_compile compile_unordered
  obtain ⟨way, hconcerns, -, hpoints⟩ := hall unorderedIssue (List.mem_singleton.2 rfl)
  exact ⟨compile_unordered, way, hconcerns, hpoints⟩

theorem not_all_issues_point :
    ¬ ∀ (j : Json) (e : CompileError), compile j = .error (.issues e) →
      ∀ issue ∈ e.issues, ∃ way, Concerns j issue way ∧ issue.place.PointsAt way := by
  intro hall
  obtain ⟨way, hconcerns, names, hhops⟩ :=
    hall unordered _ compile_unordered unorderedIssue (List.mem_singleton.2 rfl)
  rw [hconcerns.eq concerns_unordered] at hhops
  cases hhops

end Casework
