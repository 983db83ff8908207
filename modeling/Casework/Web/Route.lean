/-
  Casework.Web.Route

  What can be asked for: the things that paths name, and what each method does with them.
-/
import Casework.Task.Lifecycle
import Casework.Web.Path

namespace Casework.Web

open Task.Lifecycle (Decision)

/-- What a request can ask for. -/
inductive Route where
  | showTask (id : String)
  | changeTask (id : String)
  | claimTask (id : String)
  | setStatus (id : String)
  | conclude (decision : Decision) (id : String)
  | createDefinition
  | compileDraft
  | compileKept (id : String)
  | trigger
  | showContact (id : String)
  | changeContact (id : String)
  | showSenders
  | changeSenders
  | health
  | engineHealth
  deriving DecidableEq, Repr

/-- Whether the last part of a path is a word. A line break may follow. -/
def isLast (part word : String) : Bool := part == word || part == word ++ "\n"

namespace Route

/-- What can be asked about a task with an id, by method. -/
def ofTask (id part : String) : List (String × Route) :=
  if isLast part "claim" then [("PATCH", .claimTask id)]
  else if isLast part "status" then [("PATCH", .setStatus id)]
  else if isLast part "approve" then [("PATCH", .conclude .approve id)]
  else if isLast part "reject" then [("PATCH", .conclude .reject id)]
  else []

/-- What can be asked under the parts of a path, by method. -/
def ofParts : List String → List (String × Route)
  | ["", "api", "v2", "tasks", id] =>
    if id == "" then [] else [("GET", .showTask id), ("PATCH", .changeTask id)]
  | ["", "api", "v2", "tasks", id, part] => if id == "" then [] else ofTask id part
  | ["", "api", "v2", "workflow-definitions", part] =>
    if isLast part "compile" then [("POST", .compileDraft)] else []
  | ["", "api", "v2", "workflow-definitions", id, part] =>
    if id != "" && isLast part "compile" then [("POST", .compileKept id)] else []
  | ["", "api", "v2", "contacts", id] =>
    if id == "" then [] else [("GET", .showContact id), ("PATCH", .changeContact id)]
  | ["", "api", "v2", "workflows", part] =>
    if isLast part "trigger" then [("POST", .trigger)] else []
  | ["", "api", "v2", "settings", part] =>
    if isLast part "email-senders" then [("GET", .showSenders), ("PUT", .changeSenders)] else []
  | ["", "api", "v2", part] =>
    if isLast part "workflow-definitions" then [("POST", .createDefinition)] else []
  | ["", "health", part] => if isLast part "temporal" then [("GET", .engineHealth)] else []
  | ["", part] => if isLast part "health" then [("GET", .health)] else []
  | _ => []

/-- The parts of a path without empty ones at its end. -/
def trimmed (parts : List String) : List String :=
  (parts.reverse.dropWhile (· == "")).reverse

/-- What a method and a path lead to. -/
inductive Found where
  | route (r : Route)
  /-- The path names something, but not for this method. -/
  | otherMethod
  /-- The path without its last slash names something. -/
  | elsewhere
  | nothing

/-- What a method and the parts of a path lead to. -/
def find (method : String) (parts : List String) : Found :=
  match ofParts parts with
  | [] =>
    if parts.getLast? == some "" && !(ofParts (trimmed parts)).isEmpty then .elsewhere else .nothing
  | routes =>
    match routes.lookup method with
    | some r => .route r
    | none => .otherMethod

end Route
end Casework.Web
