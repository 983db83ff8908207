/-
  Casework.Template.FriendlyKey

  Friendly keys: short names under which the values of custom variables are found in templates. A
  key is made of the words of the variable's name; where several names have the same words, the
  later ones are numbered.
-/
import Casework.Entries
import Casework.Text.Blank
import Casework.Text.Lowercase

namespace Casework.Template

/-- Whether a character can be part of a word of a key. -/
def isKeyChar (c : Char) : Bool := c.isDigit || ('a' ≤ c && c ≤ 'z')

/-- The words among the characters, joined by underscores; `due` tells that one is due before the
next word. -/
def joinWords : Bool → List Char → List Char
  | _, [] => []
  | due, c :: rest =>
    if isKeyChar c then (if due then ['_', c] else [c]) ++ joinWords false rest
    else joinWords true rest

/-- The words of a name, joined by underscores. -/
def nameWords (name : String) : String :=
  let cs := Text.lowerChars (Text.trimChars name.toList)
  String.ofList (joinWords false (cs.dropWhile (!isKeyChar ·)))

/-- The key of a name, before numbering. -/
def keyBase (name : String) : String :=
  let words := nameWords name
  if words == "" then "variable" else words

/-- The key of the variable that is number `count + 1` of those with one base. -/
def numberedKey (base : String) (count : Nat) : String :=
  if count == 0 then base else base ++ "_" ++ toString (count + 1)

/-- The ids and keys of variables, given as ids and names, when variables with the bases `seen` come
before them. -/
def keysAfter (seen : List String) : List (String × String) → List (String × String)
  | [] => []
  | (id, name) :: rest =>
    let base := keyBase name
    (id, numberedKey base (seen.count base)) :: keysAfter (base :: seen) rest

/-- The keys of variables, given as ids and names; of two variables with one id the later counts. -/
def friendlyKeys (vars : List (String × String)) : Entries String :=
  Entries.ofList (keysAfter [] vars)

end Casework.Template
