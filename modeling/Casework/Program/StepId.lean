/-
  Casework.Program.StepId

  Ids of instructions: made of plain letters, digits, underscores and hyphens, and different from
  all ids given before. An id that is taken gets the least free number behind it.
-/
import Casework.Text.Blank

namespace Casework.StepId

/-- Whether a character can be part of an id. -/
def isIdChar (c : Char) : Bool := c.isAlphanum || c == '_' || c == '-'

/-- A character of an id: others become underscores. -/
def safeChar (c : Char) : Char := if isIdChar c then c else '_'

/-- The characters with each run of underscores shortened to one, `after` telling that an underscore
came before. -/
def squeeze : Bool → List Char → List Char
  | _, [] => []
  | after, c :: rest =>
    if c == '_' then (if after then squeeze true rest else c :: squeeze true rest)
    else c :: squeeze false rest

/-- The id that a text suggests. -/
def sanitize (base : String) : String :=
  let safe := squeeze false ((Text.trimChars base.toList).map safeChar)
  if safe.isEmpty then "step" else String.ofList safe

/-- The id with a number behind it. -/
def numbered (id : String) (n : Nat) : String := id ++ "__" ++ toString n

/-- The id with the least free number from `n` on, when at most `limit` of them are taken. -/
def firstFree (used : List String) (id : String) : Nat → Nat → String
  | 0, n => numbered id n
  | limit + 1, n =>
    if used.contains (numbered id n) then firstFree used id limit (n + 1) else numbered id n

/-- An id for a text that differs from the used ones. -/
def fresh (used : List String) (base : String) : String :=
  let id := sanitize base
  if used.contains id then firstFree used id used.length 1 else id

/-- Ids for several texts, and the ids used after them. -/
def freshAll (used : List String) : List String → List String × List String
  | [] => ([], used)
  | base :: rest =>
    let id := fresh used base
    let (ids, used) := freshAll (id :: used) rest
    (id :: ids, used)

end Casework.StepId
