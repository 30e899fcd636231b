import Lossless.Datum
import Lossless.Space

/-!
# Writing structured data

Records are written field by field, and a field that holds its default is left out.
-/

namespace Lossless.Interchange

/-- A field of a record to be written, or none if it is left out. -/
abbrev Field := Option (String × Datum)

/-- A record of the fields that are not left out. -/
def record (fields : List Field) : Datum := .record (fields.filterMap fun f => f)

namespace Field

variable {α : Type}

/-- A field that is always written. -/
def always (name : String) (d : Datum) : Field := some (name, d)

/-- A field that is left out under a condition. -/
def omitIf (name : String) (isDefault : Bool) (d : Datum) : Field :=
  if isDefault then none else some (name, d)

/-- A text, empty by default. -/
def text (name s : String) : Field := omitIf name s.isEmpty (.text s)

/-- Formatting, empty by default. -/
def space (name : String) (s : Space) : Field := text name s.text

/-- A truth value, false by default. -/
def bool (name : String) (b : Bool) : Field := omitIf name (!b) (.bool b)

/-- A list, empty by default. -/
def list (name : String) (ds : List Datum) : Field := omitIf name ds.isEmpty (.list ds)

/-- A value that may be missing. -/
def optional (name : String) (d : Option Datum) : Field := d.map fun d => (name, d)

end Field

/-- The word for a value, among the words of its type. -/
def wordFor {α : Type} [DecidableEq α] (words : List (String × α)) (a : α) : Datum :=
  match words.find? (·.2 = a) with
  | some e => .text e.1
  | none => .null

end Lossless.Interchange
