/-
  Casework.Template.Token

  Tokens: a path in double braces, blanks allowed around it. Rendering puts the value found at the
  path in the token's place, and nothing where there is no value.
-/
import Casework.Json.Fault
import Casework.Template.Segment
import Casework.Text.Blank

namespace Casework.Template

/-- Whether a character can be part of a path. -/
def isPathChar (c : Char) : Bool := c.isAlphanum || c == '_' || c == '.' || c == '-'

/-- The token at the start of the characters. -/
def tokenPattern : Pattern := fun _ cs =>
  match cs with
  | '\x7b' :: '\x7b' :: rest =>
    let inner := rest.dropWhile Text.isBlank
    let path := inner.takeWhile isPathChar
    match (inner.drop path.length).dropWhile Text.isBlank with
    | '\x7d' :: '\x7d' :: after =>
      if path.isEmpty then none else some ⟨String.ofList path, cs.length - after.length - 1⟩
    | _ => none
  | _ => none

/-- The text that is put in a token's place. -/
def shown (vars : Fields) (path : String) : String :=
  match vars.value path with
  | .null => ""
  | value => value.plain

/-- The text of a template, the values of its tokens filled in. They are not looked through
again. -/
def render (template : String) (vars : Fields) : String :=
  fill (fun path _ => shown vars path) (cut tokenPattern template)

/-- The text of a document that is used as a template: nothing when it does not count as given. -/
def renderJson (template : Json) (vars : Fields) : Except Fault String :=
  if !template.truthy then .ok ""
  else match template with
    | .text s => .ok (render s vars)
    | j => .error (.noText j.shape)

end Casework.Template
