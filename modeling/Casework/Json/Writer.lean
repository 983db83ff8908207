/-
  Casework.Json.Writer

  Documents as lines of text. Whole numbers are written in full, binary numbers as the shortest
  decimals that read back, and characters below the space are escaped.
-/
import Casework.Json.Basic
import Casework.Text.Quoted

namespace Casework.Json

/-- A character as it is written inside a text. -/
def writeChar (c : Char) : List Char :=
  if c == '"' then ['\\', '"']
  else if c == '\\' then ['\\', '\\']
  else if c.toNat < 0x20 then '\\' :: 'u' :: Text.hexDigits 4 c.toNat
  else [c]

/-- A text in double quotes. -/
def writeText (s : String) : String :=
  "\"" ++ String.ofList (s.toList.flatMap writeChar) ++ "\""

/-- A number. Those that are not finite are written as words. -/
def writeNumber : Number → String
  | .whole n => toString n
  | .binary (.infinite false) => "Infinity"
  | .binary (.infinite true) => "-Infinity"
  | .binary .notANumber => "NaN"
  | .binary x => x.plain

mutual

/-- The text of a document, on one line. -/
def write : Json → String
  | .null => "null"
  | .bool true => "true"
  | .bool false => "false"
  | .number n => writeNumber n
  | .text s => writeText s
  | .list items => "[" ++ ",".intercalate (writeItems items) ++ "]"
  | .object ⟨fields⟩ => "\x7b" ++ ",".intercalate (writeFields fields) ++ "\x7d"

/-- The texts of the items of a list. -/
def writeItems : List Json → List String
  | [] => []
  | item :: rest => write item :: writeItems rest

/-- The texts of the fields of an object. -/
def writeFields : List (String × Json) → List String
  | [] => []
  | (name, value) :: rest => (writeText name ++ ":" ++ write value) :: writeFields rest

end
end Casework.Json
