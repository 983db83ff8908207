/-
  Casework.Execution.Status

  The statuses that an execution has without a step that sets them: the one it begins with, which
  its trigger names or else is the first declared one, and those that a run reports by itself, each
  of which is used only if the definition declares it, or declares none at all.
-/
import Casework.Definition.Basic
import Casework.Json.Fault

namespace Casework

/-! ## The first status -/

/-- The status of executions whose definition declares none. -/
def fallbackStatus : String := "running"

/-- The one of two statuses that has the lesser order, the first one if neither has. -/
def lesserStatus (least other : Status) : Status :=
  if other.order.lt least.order then other else least

/-- The status of least order; of several, the first one. -/
def leastStatus : List Status → Option Status
  | [] => none
  | s :: rest => some (rest.foldl lesserStatus s)

/-- The status that an execution begins with. -/
def Definition.initialStatus (d : Definition) : String :=
  match d.trigger.initialStatus with
  | some status => if status == "" then ordered else status
  | none => ordered
where
  /-- The status when the trigger names none. -/
  ordered : String := ((leastStatus d.statuses).map Status.id).getD fallbackStatus

/-! ## Statuses of the system -/

/-- Whether a word occurs among the characters, in one piece. -/
def Text.occurs (word : List Char) : List Char → Bool
  | [] => word.isEmpty
  | c :: rest => word.isPrefixOf (c :: rest) || occurs word rest

/-- Whether a document holds a text: as an item, as the name of a field, or as a part of a text. -/
def Json.holds (j : Json) (s : String) : Except Fault Bool :=
  match j with
  | .list items => .ok (items.any fun item => item.isTextOf s)
  | .object fields => .ok (fields.has s)
  | .text whole => .ok (Text.occurs s.toList whole.toList)
  | j => .error (.noMembers j.shape)

/-- The status of this name, if it can be used with the declared ones. -/
def systemStatus (name : String) (declared : Json) : Except Fault (Option String) :=
  if !declared.truthy then .ok (some name)
  else (fun held => if held then some name else none) <$> declared.holds name

end Casework
