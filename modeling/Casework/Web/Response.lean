/-
  Casework.Web.Response

  Responses: a status with a document or a plain text.
-/
import Casework.Failure

namespace Casework.Web

/-- What a response carries. -/
inductive Content where
  | document (value : Json)
  | plain (text : String)
  deriving Repr

/-- A response. -/
structure Response where
  status : Nat
  content : Content
  deriving Repr

namespace Response

/-- A response with a document. -/
def document (status : Nat) (value : Json) : Response := ⟨status, .document value⟩

/-- A successful response. -/
def ok (value : Json) : Response := document 200 value

/-- A response that says what is wrong. -/
def problem (status : Nat) (detail : Json) : Response := document status (.obj [("detail", detail)])

/-- The response when something fails that should not. -/
def broken : Response := ⟨500, .plain "Internal Server Error"⟩

/-- The response to a failure. -/
def ofFailure : Failure → Response
  | .issues e => problem 422 e.toJson
  | .conflict c => problem 409 c.toJson
  | .invalid m => problem 400 (.text m)
  | .forbidden m => problem 403 (.text m)
  | .notFound m => problem 404 (.text m)
  | .integration m => problem 503 (.text m)
  | _ => broken

mutual

/-- Whether every number of a document is finite. -/
def isFinite : Json → Bool
  | .number (.binary (.infinite _)) | .number (.binary .notANumber) => false
  | .list items => areFinite items
  | .object ⟨fields⟩ => haveFinite fields
  | _ => true

/-- Whether every number of the items of a list is finite. -/
def areFinite : List Json → Bool
  | [] => true
  | item :: rest => isFinite item && areFinite rest

/-- Whether every number of the fields of an object is finite. -/
def haveFinite : List (String × Json) → Bool
  | [] => true
  | (_, value) :: rest => isFinite value && haveFinite rest

end

/-- The response, unless its document has a number that cannot be written. -/
def written (r : Response) : Response :=
  match r.content with
  | .document value => if isFinite value then r else broken
  | .plain _ => r

/-- The response to a request that is only for its head: nothing is carried. -/
def headOnly (r : Response) : Response := { r with content := .plain "" }

end Response
end Casework.Web
