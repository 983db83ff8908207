/-
  Casework.Json.Key

  Keys and equality by value. Keys are the documents without parts, under which values can be looked
  up. They are compared by value, so a truth value equals the number one or zero, and a whole number
  equals a binary one. Documents with parts are equal if their parts are; the order of an object's
  fields does not count.
-/
import Casework.Json.Fault

namespace Casework

/-- A key. -/
inductive Key where
  | null
  | bool (value : Bool)
  | number (value : Number)
  | text (value : String)
  deriving DecidableEq, Repr

namespace Key

/-- The number that a key counts as. -/
def number? : Key → Option Number
  | .bool b => some (.whole (if b then 1 else 0))
  | .number n => some n
  | .null | .text _ => none

/-- Whether two keys are equal by value. -/
def same : Key → Key → Bool
  | .null, .null => true
  | .text a, .text b => a == b
  | a, b =>
    match a.number?, b.number? with
    | some m, some n => m.same n
    | _, _ => false

/-- The document that a key is. -/
def toJson : Key → Json
  | .null => .null
  | .bool b => .bool b
  | .number n => .number n
  | .text s => .text s

/-- The name of the field that a key becomes in an object. -/
def name : Key → String
  | .null => "null"
  | .bool b => if b then "true" else "false"
  | .number (.binary (.infinite negative)) => if negative then "-Infinity" else "Infinity"
  | .number n => n.plain
  | .text s => s

end Key

namespace Json

/-- The key that a document is. -/
def key : Json → Except Fault Key
  | .null => .ok .null
  | .bool b => .ok (.bool b)
  | .number n => .ok (.number n)
  | .text s => .ok (.text s)
  | j => .error (.noKey j.shape)

/-- Whether two documents are keys and equal by value. -/
def sameKey (a b : Json) : Bool :=
  match a.key, b.key with
  | .ok a, .ok b => a.same b
  | _, _ => false

end Json

/-- Values under keys, in the order in which the keys were first put. -/
abbrev Table (α : Type) := List (Key × α)

namespace Table

variable {α : Type}

/-- Puts a value under a key; a key that is there already stays. -/
def put (key : Key) (value : α) : Table α → Table α
  | [] => [(key, value)]
  | (k, v) :: rest => if k.same key then (k, value) :: rest else (k, v) :: put key value rest

/-- The value under a key. -/
def get? (table : Table α) (key : Key) : Option α :=
  (table.find? fun entry => entry.1.same key).map Prod.snd

/-- The table as named entries. -/
def entries (table : Table α) : Entries α :=
  Entries.ofList (table.map fun (key, value) => (key.name, value))

/-! ## What is found among texts -/

/-- Of all keys only a text is the same as a text, and only if it is that text. -/
theorem same_text_iff (key : Key) (s : String) : key.same (.text s) = true ↔ key = .text s := by
  cases key <;> simp [Key.same, Key.number?]

/-- Among keys that are texts, putting a value changes what is found under its key only. -/
theorem get?_put_text (table : Table α) (s t : String) (value : α) :
    (table.put (.text s) value).get? (.text t) =
      if t = s then some value else table.get? (.text t) := by
  induction table with
  | nil =>
    by_cases h : t = s
    · subst h
      simp [put, get?, same_text_iff]
    · have hne : s ≠ t := fun he => h he.symm
      simp [put, get?, same_text_iff, h, hne]
  | cons entry rest ih =>
    obtain ⟨key, old⟩ := entry
    rw [put]
    -- The table is searched in the order in which `put` goes through it: the new value stands where
    -- the first entry with the same key was.
    by_cases hkey : key = .text s
    · subst hkey
      by_cases h : t = s
      · subst h
        simp [get?, same_text_iff]
      · have hne : s ≠ t := fun he => h he.symm
        simp [get?, same_text_iff, h, hne]
    · rw [if_neg (by simpa [same_text_iff] using hkey)]
      -- The first entry has another key than `s`; it may be the one that is looked for.
      by_cases hfound : key = .text t
      · subst hfound
        have hne : t ≠ s := fun h => hkey (h ▸ rfl)
        simp [get?, same_text_iff, hne]
      · have hfalse : key.same (.text t) = false := by
          rw [← Bool.not_eq_true, same_text_iff]
          exact hfound
        simp only [get?, List.find?_cons, hfalse] at ih ⊢
        exact ih

end Table

namespace Json

/-- The pair that a document of two items is; it stands as item number `index` of a list. -/
def pairOf (index : Nat) (j : Json) : Except Fault (Json × Json) :=
  match j.itemsOf with
  | .ok [a, b] => .ok (a, b)
  | .ok parts => .error (.noPair index parts.length)
  | .error _ => .error (.noSequence index)

/-- A table with the values under keys of a list of pairs, from position `index` on; of two values
under one key the later counts. -/
def putPairs (table : Table Json) (index : Nat) : List Json → Except Fault (Table Json)
  | [] => .ok table
  | item :: rest => do
    let (name, value) ← item.pairOf index
    let key ← name.key
    putPairs (table.put key value) (index + 1) rest

/-- The values under keys of a list of pairs. -/
def tableOf (items : List Json) : Except Fault (Table Json) := putPairs [] 0 items

/-- The fields of an object, of a list of pairs, and of what does not count as given. -/
def mappingOf (j : Json) : Except Fault Fields :=
  if !j.truthy then .ok .empty
  else match j with
    | .object fields => .ok fields
    | .list items => Table.entries <$> tableOf items
    | .text s => Table.entries <$> tableOf (s.toList.map fun c => .text (String.singleton c))
    | j => .error (.noItems j.shape)

end Json
end Casework

/-! ## Equality of documents -/

namespace Casework.Json

mutual

/-- Whether two documents are equal by value. -/
def same : Json → Json → Bool
  | .list items, .list others => sameItems items others
  | .object ⟨fields⟩, .object others =>
    fields.length == others.toList.length && sameFields fields others
  | a, b => a.sameKey b

/-- Whether the items of two lists are equal in order. -/
def sameItems : List Json → List Json → Bool
  | [], [] => true
  | a :: rest, b :: others => same a b && sameItems rest others
  | _, _ => false

/-- Whether every field has an equal one in the other object. -/
def sameFields : List (String × Json) → Fields → Bool
  | [], _ => true
  | (name, value) :: rest, others =>
    (match others.get? name with
     | some other => same value other
     | none => false) && sameFields rest others

end

end Casework.Json
