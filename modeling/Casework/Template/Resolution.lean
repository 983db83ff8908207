/-
  Casework.Template.Resolution

  Resolving references into tokens. A reference to a contact's field or to a custom variable
  stands for a path; any other stays as it is written and is reported as unsupported.
-/
import Casework.Definition.Basic
import Casework.Template.FriendlyKey
import Casework.Template.Reference

namespace Casework.Template

/-- The friendly keys of the custom variables of a list. -/
def keysOf (vars : List Variable) : Entries String :=
  friendlyKeys ((vars.filter Variable.isCustom).map fun v => (v.id, v.name))

/-- The path at which a custom variable is found. -/
def customPath (name : String) : String := "custom." ++ name

/-- The path that a reference stands for. The id of a custom variable is written with or without the
lead of references. -/
def resolve? (keys : Entries String) (ref : String) : Option String :=
  match contactField? ref with
  | some field => some (contactPath field)
  | none =>
    ((keys.get? (String.ofList (ref.toList.drop "var-".length))).orElse fun _ => keys.get? ref).map
      customPath

/-- The references of a text that stand for nothing, in order. -/
def unsupported (keys : Entries String) (s : String) : List String :=
  (references s).filter fun ref => (resolve? keys ref).isNone

/-- What takes the place of a reference. -/
def replacement (keys : Entries String) (ref : String) : String :=
  match resolve? keys ref with
  | some path => token path
  | none => ref

/-- The text with its references resolved into tokens. -/
def resolved (keys : Entries String) (s : String) : String :=
  fill (fun ref _ => replacement keys ref) (cut referencePattern s)

end Casework.Template
