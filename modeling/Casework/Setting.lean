/-
  Casework.Setting

  What the surroundings set. Settings are texts that stand for numbers or for themselves; where no
  text is given, the plain text of a default is read in its place. The address of the store gets the
  name of the driver that is used for it. Log records are marked with the execution at hand, or with
  a hyphen when there is none; a mark that a record already has stays.
-/
import Casework.Json.Basic
import Casework.Json.Plain
import Casework.Text.Numeral

/-! ## Settings -/

namespace Casework.Setting

/-- The whole number that a setting stands for. -/
def whole (given : Option String) (default : Json) : Except Text.NumeralError Int :=
  Text.readWhole (given.getD default.plain)

/-- The binary number that a setting stands for. -/
def binary? (given : Option String) (default : Json) : Option Binary64 :=
  Text.readBinary? (given.getD default.plain)

/-- The text that a setting stands for. -/
def text (given : Option String) (default : Json) : Json :=
  match given with
  | some s => .text s
  | none => default

end Casework.Setting

/-! ## The address of the store -/

namespace Casework.Store

/-- The beginnings of plain addresses. -/
def plainSchemes : List String := ["postgres://", "postgresql://"]

/-- The beginning of an address with the name of the driver. -/
def driverScheme : String := "postgresql+asyncpg://"

/-- An address with the name of the driver. -/
def normalizeUrl (url : String) : String :=
  match plainSchemes.find? fun scheme => scheme.toList.isPrefixOf url.toList with
  | some scheme => driverScheme ++ String.ofList (url.toList.drop scheme.length)
  | none => url

end Casework.Store

/-! ## The marks of log records -/

namespace Casework

/-- The execution that log records belong to, null when there is none. -/
structure LogContext where
  execution : Json
  deriving Repr

namespace LogContext

/-- Outside of any execution. -/
def none : LogContext := ⟨.null⟩

/-- Inside an execution; what does not count as given ends it. -/
def bind (execution : Json) : LogContext := ⟨execution.orElse .null⟩

/-- The mark of a record that already has the mark `own`. -/
def stamp (context : LogContext) (own : Json) : Json :=
  own.orElse (context.execution.orElse (.text "-"))

end LogContext
end Casework
