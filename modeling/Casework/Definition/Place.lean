/-
  Casework.Definition.Place

  Places inside a document: the way from the top to a part, by field names and positions. A place
  has a text, which editors show, and its way can be followed into a document.
-/
import Casework.Json.Basic

namespace Casework

/-- One stretch of the way into a document. -/
inductive Hop where
  | field (name : String)
  | item (index : Nat)
  deriving DecidableEq, Repr

/-- The way into a document, from the top. -/
structure Place where
  hops : List Hop
  deriving DecidableEq, Repr

namespace Place

/-- The document itself. -/
def top : Place := ⟨[]⟩

/-- The field `name` of the part at a place. -/
def field (place : Place) (name : String) : Place := ⟨place.hops ++ [.field name]⟩

/-- The item number `index` of the list in the field `name` of the part at a place. -/
def item (place : Place) (name : String) (index : Nat) : Place :=
  ⟨place.hops ++ [.field name, .item index]⟩

/-- The text of the rest of a way: fields after points, positions in brackets. -/
def renderRest : List Hop → String
  | [] => ""
  | .field name :: rest => "." ++ name ++ renderRest rest
  | .item index :: rest => "[" ++ toString index ++ "]" ++ renderRest rest

/-- The text of a place. -/
def render (place : Place) : String :=
  match place.hops with
  | .field name :: rest => name ++ renderRest rest
  | hops => renderRest hops

end Place

/-- The part of a document that lies at the end of a way. -/
def Json.follow? : List Hop → Json → Option Json
  | [], j => some j
  | .field name :: rest, .object fields => (fields.get? name).bind (follow? rest)
  | .item index :: rest, .list items => items[index]?.bind (follow? rest)
  | _ :: _, _ => none

end Casework
