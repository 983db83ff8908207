/-
  Casework.Proofs.Number.Sorting

  What holds of items in order by a number, whether their numbers compare with each other or not:
  they are the items that were given, they are put in the same order if they carry something along,
  and items that are in order already stay where they are.
-/
import Casework.Number.Sorting

namespace Casework

namespace Sorting

variable {α β : Type}

-- ============================================================================
-- No item is lost
-- ============================================================================

/-- A run and what is behind it are the items, in the same order. -/
theorem run_append (goesOn : α → α → Bool) (a : α) (items : List α) :
    (run goesOn a items).1 ++ (run goesOn a items).2 = items := by
  induction items generalizing a with
  | nil => rfl
  | cons b rest ih =>
    rw [run]
    split
    · rw [List.cons_append, ih b]
    · rfl

/-- The first run and what is behind it are the items in another order. -/
theorem firstRun_perm (lt : α → α → Bool) (items : List α) :
    ((firstRun lt items).1 ++ (firstRun lt items).2).Perm items := by
  match items with
  | [] => exact .refl _
  | [a] => exact .refl _
  | a :: b :: rest =>
    rw [firstRun]
    split
    -- A run that falls is turned around, so its items are the same up to their order.
    · have hrun := run_append (fun a b => lt b a) a (b :: rest)
      refine ((List.reverse_perm _).append_right _).trans ?_
      rw [List.cons_append, hrun]
    · have hrun := run_append (fun a b => !lt b a) a (b :: rest)
      rw [List.cons_append, hrun]

/-- Wherever the place of an item is, it is put there and nothing else changes. -/
theorem insert_perm (lt : α → α → Bool) (sorted : List α) (a : α) :
    (insert lt sorted a).Perm (a :: sorted) := by
  rw [insert]
  refine List.perm_middle.trans ?_
  rw [List.take_append_drop]

/-- Insertion puts the items into another order, and loses none. -/
theorem byInsertion_perm (lt : α → α → Bool) (items : List α) :
    (byInsertion lt items).Perm items := by
  have hfold : ∀ rest sorted : List α,
      (rest.foldl (insert lt) sorted).Perm (sorted ++ rest) := by
    intro rest
    induction rest with
    | nil => exact fun sorted => .of_eq (List.append_nil _).symm
    | cons a rest ih =>
      intro sorted
      exact (ih _).trans (((insert_perm lt sorted a).append_right rest).trans List.perm_middle.symm)
  exact (hfold _ _).trans (firstRun_perm lt items)

-- ============================================================================
-- Items that carry something along
-- ============================================================================

variable (f : α → β) (lt : β → β → Bool)

theorem map_run (goesOn : β → β → Bool) (a : α) (items : List α) :
    run goesOn (f a) (items.map f) =
      ((run (fun a b => goesOn (f a) (f b)) a items).1.map f,
        (run (fun a b => goesOn (f a) (f b)) a items).2.map f) := by
  induction items generalizing a with
  | nil => rfl
  | cons b rest ih =>
    rw [List.map_cons, run, run]
    split
    · rw [ih b, List.map_cons]
    · rfl

theorem map_firstRun (items : List α) :
    firstRun lt (items.map f) =
      ((firstRun (fun a b => lt (f a) (f b)) items).1.map f,
        (firstRun (fun a b => lt (f a) (f b)) items).2.map f) := by
  match items with
  | [] => rfl
  | [a] => rfl
  | a :: b :: rest =>
    rw [List.map_cons, List.map_cons, firstRun, firstRun, ← List.map_cons, map_run, map_run]
    split
    · simp only [← List.map_cons, List.map_reverse]
    · rfl

theorem place_map (sorted : List α) (a : α) (low high : Nat) :
    place lt (sorted.map f) (f a) low high =
      place (fun a b => lt (f a) (f b)) sorted a low high := by
  fun_induction place (fun a b => lt (f a) (f b)) sorted a low high with
  | case1 low high hlt middle hbefore ih =>
    have hbefore' : (sorted.map f)[middle]?.any (lt (f a)) = true := by
      rwa [List.getElem?_map, Option.any_map]
    rw [place, if_pos hlt, ← ih]
    exact if_pos hbefore'
  | case2 low high hlt middle hbehind ih =>
    have hbehind' : ¬ (sorted.map f)[middle]?.any (lt (f a)) = true := by
      rwa [List.getElem?_map, Option.any_map]
    rw [place, if_pos hlt, ← ih]
    exact if_neg hbehind'
  | case3 low high hge => rw [place, if_neg hge]

theorem map_insert (sorted : List α) (a : α) :
    insert lt (sorted.map f) (f a) = (insert (fun a b => lt (f a) (f b)) sorted a).map f := by
  rw [insert, insert, place_map, List.length_map, List.map_append, List.map_cons, List.map_take,
    List.map_drop]

theorem map_byInsertion (items : List α) :
    byInsertion lt (items.map f) = (byInsertion (fun a b => lt (f a) (f b)) items).map f := by
  have hfold : ∀ rest sorted : List α, (rest.map f).foldl (insert lt) (sorted.map f) =
      (rest.foldl (insert fun a b => lt (f a) (f b)) sorted).map f := by
    intro rest
    induction rest with
    | nil => exact fun sorted => rfl
    | cons a rest ih =>
      intro sorted
      rw [List.map_cons, List.foldl_cons, map_insert, ih]
      rfl
  rw [byInsertion, map_firstRun, hfold]
  rfl

-- ============================================================================
-- Items that are in order
-- ============================================================================

/-- A list in which nothing falls is one run. -/
theorem byInsertion_of_pairwise {lt : α → α → Bool} {items : List α}
    (h : items.Pairwise fun a b => lt b a = false) : byInsertion lt items = items := by
  -- What is in order already is one run, which goes on to the end.
  have hrun : ∀ a, ∀ items : List α, (a :: items).Pairwise (fun a b => lt b a = false) →
      run (fun a b => !lt b a) a items = (items, []) := by
    intro a items
    induction items generalizing a with
    | nil => exact fun _ => rfl
    | cons b rest ih =>
      intro h
      have hnext : (!lt b a) = true := by simp [List.rel_of_pairwise_cons h List.mem_cons_self]
      rw [run, if_pos hnext, ih b h.of_cons]
  match items with
  | [] => rfl
  | [a] => rfl
  | a :: b :: rest =>
    have hnext : ¬ lt b a = true := by simp [List.rel_of_pairwise_cons h List.mem_cons_self]
    rw [byInsertion, firstRun, if_neg hnext, hrun a _ h]
    rfl

end Sorting

-- ============================================================================
-- The order by a number
-- ============================================================================

variable {α β : Type} {order : α → Number} {items : List α}

/-- Putting items in order loses none of them and adds none. -/
theorem sortByOrder_perm (order : α → Number) (items : List α) :
    (sortByOrder order items).Perm items := by
  rw [sortByOrder]
  split
  · exact List.mergeSort_perm _ _
  · exact Sorting.byInsertion_perm _ _

theorem mem_sortByOrder {a : α} : a ∈ sortByOrder order items ↔ a ∈ items :=
  (sortByOrder_perm order items).mem_iff

/-- The order does not hang on what the items carry along. -/
theorem map_sortByOrder (f : α → β) (order : β → Number) (items : List α) :
    (sortByOrder (fun a => order (f a)) items).map f = sortByOrder order (items.map f) := by
  have hall : (items.map f).all (fun b => (order b).isComparable) =
      items.all fun a => (order (f a)).isComparable := List.all_map
  rw [sortByOrder, sortByOrder, hall]
  split
  · exact List.map_mergeSort fun _ _ _ _ => rfl
  · exact (Sorting.map_byInsertion f (fun a b => (order a).lt (order b)) items).symm

/-- Items that are in order stay where they are. -/
theorem sortByOrder_of_pairwise
    (h : items.Pairwise fun a b => (order b).lt (order a) = false) :
    sortByOrder order items = items := by
  rw [sortByOrder]
  split
  · exact List.mergeSort_of_pairwise (h.imp fun hle => by simp [hle])
  · exact Sorting.byInsertion_of_pairwise h

/-- Two items that are out of order change places. -/
theorem sortByOrder_pair {a b : α} (h : (order b).lt (order a)) :
    sortByOrder order [a, b] = [b, a] := by
  rw [sortByOrder]
  split
  · simp [List.mergeSort, List.MergeSort.Internal.splitInTwo, h]
  -- The two fall, so they are a run that is turned around, and nothing is left to insert.
  · simp [Sorting.byInsertion, Sorting.firstRun, Sorting.run, h]

end Casework
