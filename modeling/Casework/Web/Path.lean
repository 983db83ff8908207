/-
  Casework.Web.Path

  The path of a request's target: without its query and fragment, without a host, its dots resolved,
  percent-decoded and split at the slashes.
-/
import Casework.Text.Percent
import Casework.Text.Printable

namespace Casework.Web

/-- Whether a character is one of the plain ones that cannot be shown. -/
def isControl (c : Char) : Bool := c.toNat < 0x20 || c.toNat == 0x7F

/-- Characters split at every slash. -/
def splitSlash : List Char → List (List Char)
  | [] => [[]]
  | c :: rest =>
    if c == '/' then [] :: splitSlash rest
    else match splitSlash rest with
      | part :: parts => (c :: part) :: parts
      | [] => [[c]]

/-- Resolves the parts that stand for the present level and for the level above. -/
def resolveDots (parts : List (List Char)) : List (List Char) :=
  let up (kept : List (List Char)) : List (List Char) :=
    if kept.isEmpty || kept == [[]] then kept else kept.dropLast
  parts.foldl (fun kept part =>
    if part == ['.'] then kept else if part == ['.', '.'] then up kept else kept ++ [part]) []

/-- The target without its host. -/
def withoutHost : List Char → List Char
  | '/' :: '/' :: rest => rest.dropWhile (· != '/')
  | cs => cs

/-- The characters of a target's path, still encoded. -/
def encodedPath (target : String) : List Char :=
  withoutHost (target.toList.takeWhile fun c => c != '?' && c != '#')

/-- The parts of a target's path. -/
def partsOf (target : String) : List String :=
  let rooted := '/' :: (encodedPath target).dropWhile (· == '/')
  let resolved := List.intercalate ['/'] (resolveDots (splitSlash rooted))
  let path := Text.percentDecode (if resolved.isEmpty then ['/'] else resolved)
  (splitSlash path).map String.ofList

end Casework.Web
