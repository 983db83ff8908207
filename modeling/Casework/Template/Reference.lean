/-
  Casework.Template.Reference

  References to variables in authored texts: `var-` and a name of letters, digits, underscores and
  hyphens, with at most one point inside. A reference begins and ends at a word boundary, so what
  follows it is never a letter, and of the spellings that end at one the longest counts.
-/
import Casework.Template.Segment
import Casework.Text.Word

namespace Casework.Template

/-- Whether a character can be part of a name. -/
def isNameChar (c : Char) : Bool := c.isAlphanum || c == '_' || c == '-'

/-- The length of the longest start of at most `limit` characters that ends at a word boundary, zero
if there is none. -/
def lastBoundary : Nat → List Char → Nat
  | 0, _ => 0
  | _, [] => 0
  | limit + 1, c :: rest =>
    match lastBoundary limit rest with
    | 0 => if Text.isBoundary (some c) rest.head? then 1 else 0
    | n + 1 => n + 2

/-- The length of the longest start of the characters that is a name and ends at a word boundary,
zero if there is none. -/
def boundedName (cs : List Char) : Nat := lastBoundary (cs.takeWhile isNameChar).length cs

/-- How a point and a second name may follow a name: their length, zero if they do not. -/
def boundedField : List Char → Nat
  | '.' :: rest =>
    match boundedName rest with
    | 0 => 0
    | n + 1 => n + 2
  | _ => 0

/-- The length of a name that may have a second one after a point. -/
def boundedPath (cs : List Char) : Nat :=
  let run := (cs.takeWhile isNameChar).length
  if run == 0 then 0
  else match boundedField (cs.drop run) with
    | 0 => boundedName cs
    | n + 1 => run + (n + 1)

/-- The reference at the start of the characters. -/
def referencePattern : Pattern := fun before cs =>
  match cs with
  | 'v' :: 'a' :: 'r' :: '-' :: rest =>
    if Text.isBoundary before (some 'v') then
      match boundedPath rest with
      | 0 => none
      | n + 1 => some ⟨String.ofList (cs.take (n + 5)), n + 4⟩
    else none
  | _ => none

/-- The references in a text, in order. -/
def references (s : String) : List String := occurrences (cut referencePattern s)

/-- What stands before the name of a contact's field. -/
def contactLead : List Char := "var-contact.".toList

/-- The field of the contact that the whole text refers to. A line break at the end is passed
over. -/
def contactField? (s : String) : Option String :=
  if contactLead.isPrefixOf s.toList then
    let rest := s.toList.drop contactLead.length
    let name := if rest.getLast? == some '\n' then rest.dropLast else rest
    if !name.isEmpty && name.all isNameChar then some (String.ofList name) else none
  else none

/-- The path at which a contact's field is found. -/
def contactPath (field : String) : String := "contact." ++ field

/-- A path as a token. -/
def token (path : String) : String := "\x7b\x7b" ++ path ++ "\x7d\x7d"

/-- The token for the variable that a branch tests: a token stands for itself, and a reference to a
contact's field becomes one. -/
def branchField? (ref : String) : Option String :=
  if "\x7b\x7b".toList.isPrefixOf ref.toList && "\x7d\x7d".toList.isSuffixOf ref.toList then
    some ref
  else (contactField? ref).map (token ∘ contactPath)

end Casework.Template
