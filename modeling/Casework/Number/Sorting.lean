/-
  Casework.Number.Sorting

  Putting items in order by a number. Where all numbers compare with each other, they tell the
  order, and items with equal numbers stay as they were. The number that is none compares with no
  other one; the order of a list with such a number is what sorting by insertion makes of it.
-/
import Casework.Number.Basic

namespace Casework

namespace Sorting

variable {α : Type}

/-- The items behind `a` as long as each goes on from the one before, and the rest. -/
def run (goesOn : α → α → Bool) (a : α) : List α → List α × List α
  | [] => ([], [])
  | b :: rest =>
    if goesOn a b then (b :: (run goesOn b rest).1, (run goesOn b rest).2) else ([], b :: rest)

/-- The first items as a run that does not fall, and the rest. A run that falls is turned around. -/
def firstRun (lt : α → α → Bool) : List α → List α × List α
  | [] => ([], [])
  | [a] => ([a], [])
  | a :: b :: rest =>
    if lt b a then
      let (falling, rest) := run (fun a b => lt b a) a (b :: rest)
      ((a :: falling).reverse, rest)
    else
      let (rising, rest) := run (fun a b => !lt b a) a (b :: rest)
      (a :: rising, rest)

/-- Where an item is put between two places of a sorted list, found by halving. -/
def place (lt : α → α → Bool) (sorted : List α) (a : α) (low high : Nat) : Nat :=
  if low < high then
    let middle := low + (high - low) / 2
    if sorted[middle]?.any (lt a) then place lt sorted a low middle
    else place lt sorted a (middle + 1) high
  else low
termination_by high - low

/-- Puts an item into a sorted list. -/
def insert (lt : α → α → Bool) (sorted : List α) (a : α) : List α :=
  let n := place lt sorted a 0 sorted.length
  sorted.take n ++ a :: sorted.drop n

/-- Sorts by insertion, as short lists are sorted: the first run stays, and each item behind it is
put into its place. -/
def byInsertion (lt : α → α → Bool) (items : List α) : List α :=
  (firstRun lt items).2.foldl (insert lt) (firstRun lt items).1

end Sorting

/-- Puts a list in order by a number, keeping the order of items with equal numbers. -/
def sortByOrder {α : Type} (order : α → Number) (items : List α) : List α :=
  if items.all fun a => (order a).isComparable then
    items.mergeSort fun a b => !(order b).lt (order a)
  else Sorting.byInsertion (fun a b => (order a).lt (order b)) items

end Casework
