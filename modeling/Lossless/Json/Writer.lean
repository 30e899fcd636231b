import Lossless.Json.Number

/-!
# Writing JSON

A value on one line, without blanks. In texts only quotes, backslashes and control
characters are escaped.
-/

namespace Lossless.Json

/-- A hexadecimal digit. -/
def hexDigit (n : Nat) : Char := Nat.digitChar (n % 16)

/-- A character as it stands in a text. -/
def escaped (c : Char) : List Char :=
  if c = '"' then ['\\', '"']
  else if c = '\\' then ['\\', '\\']
  else if c.toNat < 32 then ['\\', 'u', '0', '0', hexDigit (c.toNat >>> 4), hexDigit c.toNat]
  else [c]

/-- A text. -/
def writeText (s : String) : String :=
  String.ofList ('"' :: (s.toList.flatMap escaped ++ ['"']))

mutual

/-- Writes a value. -/
def write : Datum → String
  | .null => "null"
  | .bool true => "true"
  | .bool false => "false"
  | .integer n => toString n
  | .decimal negative x => Number.writeDecimal negative x
  | .text s => writeText s
  | .list elements => "[" ++ ",".intercalate (writeElements elements) ++ "]"
  | .record fields => "\x7b" ++ ",".intercalate (writeFields fields) ++ "\x7d"

/-- Writes the elements of a list. -/
def writeElements : List Datum → List String
  | [] => []
  | d :: ds => write d :: writeElements ds

/-- Writes the fields of a record. -/
def writeFields : List (String × Datum) → List String
  | [] => []
  | (name, d) :: fields => (writeText name ++ ":" ++ write d) :: writeFields fields

end

end Lossless.Json
