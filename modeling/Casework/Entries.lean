/-
  Casework.Entries

  Named entries in the order of insertion: the fields of an object, the variables of a run, the
  index of a program. Giving a name a second value keeps its place. The view is `get?`: the
  lemmas below say what each operation does to it.
-/

namespace Casework

/-- Values under names, in the order in which the names were first put. -/
structure Entries (α : Type) where
  toList : List (String × α)
  deriving Repr, BEq, DecidableEq

namespace Entries

variable {α : Type}

/-- No entries. -/
def empty : Entries α := ⟨[]⟩

instance : Inhabited (Entries α) := ⟨empty⟩

/-- The value under a name. -/
def get? (entries : Entries α) (name : String) : Option α := entries.toList.lookup name

/-- Whether there is a value under a name. -/
def has (entries : Entries α) (name : String) : Bool := (entries.get? name).isSome

/-- The names, in order. -/
def names (entries : Entries α) : List String := entries.toList.map Prod.fst

/-- The names, sorted by their characters. -/
def sortedNames (entries : Entries α) : List String :=
  entries.names.mergeSort fun a b => decide (a ≤ b)

/-- Whether there are no entries. -/
def isEmpty (entries : Entries α) : Bool := entries.toList.isEmpty

/-- Puts a value under a name of a list of pairs: in its place, else at the end. -/
def putList (name : String) (value : α) : List (String × α) → List (String × α)
  | [] => [(name, value)]
  | (n, v) :: rest => if n == name then (name, value) :: rest else (n, v) :: putList name value rest

/-- Puts a value under a name. -/
def put (entries : Entries α) (name : String) (value : α) : Entries α :=
  ⟨putList name value entries.toList⟩

/-- Puts every pair, one after the other. -/
def putAll (entries : Entries α) (pairs : List (String × α)) : Entries α :=
  pairs.foldl (fun es (n, v) => es.put n v) entries

/-- The entries of a list of pairs; of two values under one name the later stays. -/
def ofList (pairs : List (String × α)) : Entries α := empty.putAll pairs

/-- Puts a value under a name if there is one. -/
def putSome (entries : Entries α) (name : String) : Option α → Entries α
  | some value => entries.put name value
  | none => entries

/-- The entries with a function applied to every value. -/
def map {β : Type} (entries : Entries α) (f : α → β) : Entries β :=
  ⟨entries.toList.map fun (name, value) => (name, f value)⟩

/-! ## What the operations do to the view -/

/-- A value put under a name is what is found under it, whether it replaces an older one or comes
behind all others; every other name keeps its value. -/
theorem lookup_putList (name other : String) (value : α) (pairs : List (String × α)) :
    (putList name value pairs).lookup other =
      if other = name then some value else pairs.lookup other := by
  induction pairs with
  | nil =>
    -- Nothing is there yet: the pair stands alone.
    by_cases h : other = name
    · simp [putList, h]
    · simp [putList, List.lookup_cons, beq_eq_false_iff_ne.2 h, h]
  | cons pair rest ih =>
    obtain ⟨n, v⟩ := pair
    by_cases hn : n = name
    -- The pair at the front has the name, and its value is replaced.
    · subst hn
      by_cases h : other = n
      · simp [putList, h]
      · simp [putList, List.lookup_cons, beq_eq_false_iff_ne.2 h, h]
    -- The pair at the front is passed over.
    · by_cases h : other = n
      · subst h
        simp [putList, hn]
      · simp [putList, List.lookup_cons, hn, beq_eq_false_iff_ne.2 h, ih]

@[simp] theorem get?_empty (name : String) : (empty : Entries α).get? name = none := rfl

/-- Under a name that was just put the new value is found, under every other one the old value. -/
@[simp] theorem get?_put (entries : Entries α) (name other : String) (value : α) :
    (entries.put name value).get? other =
      if other = name then some value else entries.get? other :=
  lookup_putList name other value entries.toList

@[simp] theorem putAll_nil (entries : Entries α) : entries.putAll [] = entries := rfl

@[simp] theorem putAll_cons (entries : Entries α) (pair : String × α)
    (pairs : List (String × α)) :
    entries.putAll (pair :: pairs) = (entries.put pair.1 pair.2).putAll pairs := rfl

end Entries
end Casework
