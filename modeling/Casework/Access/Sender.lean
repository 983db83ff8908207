/-
  Casework.Access.Sender

  The addresses from which an organization sends e-mail. They are kept trimmed, in lower case and
  without repeats; anything else in a stored list is passed over, but refused when it is submitted.
-/
import Casework.Json.Basic
import Casework.Text.Blank
import Casework.Text.Lowercase

namespace Casework.Sender

/-- The most addresses an organization can have. -/
def limit : Nat := 25

/-- The form in which addresses are kept and compared. -/
def normalize (address : String) : String :=
  String.ofList (Text.lowerChars (Text.trimChars address.toList))

/-- Why a submitted list is refused. -/
inductive Refusal where
  | notList
  | tooMany
  | malformed (address : String)
  deriving DecidableEq, Repr

/-- The text of a refusal. -/
def Refusal.message : Refusal → String
  | .notList => "allowed_from_emails must be a list of email strings"
  | .tooMany => "allowed_from_emails cannot contain more than " ++ toString limit ++ " addresses"
  | .malformed address => "Invalid sender email address: " ++ address

/-- The list without later repeats. -/
def dedup (addresses : List String) : List String :=
  addresses.foldl (fun kept a => if kept.contains a then kept else kept ++ [a]) []

/-- The addresses of a document, none when it is no list. -/
def sanitize : Json → List String
  | .list items =>
    dedup <| (items.filterMap Json.text?).filterMap fun s =>
      let address := normalize s
      if address == "" then none else some address
  | _ => []

/-- Whether a character can be part of an address, beside the sign between its parts. -/
def isAddressChar (c : Char) : Bool := !Text.isBlank c && c != '@'

/-- Whether characters have a point with other characters on both sides. -/
def hasInnerPoint : List Char → Bool
  | [] => false
  | _ :: rest => (rest.dropLast).contains '.'

/-- Whether the characters are an address: a part before the sign, and a part behind it with a point
inside. A line break at the end is passed over. -/
def isAddress (cs : List Char) : Bool :=
  let user := cs.takeWhile isAddressChar
  match cs.drop user.length with
  | '@' :: host =>
    let host := if host.getLast? == some '\n' then host.dropLast else host
    !user.isEmpty && host.all isAddressChar && hasInnerPoint host
  | _ => false

/-- The addresses of a submitted list. -/
def submit (j : Json) : Except Refusal (List String) :=
  match j with
  | .list _ =>
    let addresses := sanitize j
    if addresses.length > limit then .error .tooMany
    else match addresses.find? fun a => !isAddress a.toList with
      | some a => .error (.malformed a)
      | none => .ok addresses
  | _ => .error .notList

/-- Whether an address is among the allowed ones. -/
def isAllowed (allowed : List String) (address : String) : Bool :=
  allowed.contains (normalize address)

end Casework.Sender
