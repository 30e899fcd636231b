import Lossless.Datum
import Lossless.TreeId
import Lossless.Space

/-!
# Reading structured data

The steps that readers of structured data are made of. Reading can fail, and it
numbers the nodes that it meets, from one: so no two nodes that are read have the same
identity. An absent field, or a null, stands for the default of the field.
-/

namespace Lossless.Interchange

/-- Why data cannot be read. -/
inductive ReadError where
  /-- Something of another shape is needed. -/
  | expected (what : String)
  /-- A word is not among those that may stand here. -/
  | unknown (what : String) (word : String)
  /-- The data are well-formed, but what they say is refused, with a report. -/
  | refused (report : Datum)

/-- The report of an error. -/
def ReadError.report : ReadError → Datum
  | .expected what => malformed (what ++ " expected")
  | .unknown what word => malformed ("unknown " ++ what ++ ": " ++ word)
  | .refused report => report
where
  /-- Nothing can be made of the data. -/
  malformed (message : String) : Datum :=
    .record [("error", .text "BadInput"), ("message", .text message)]

/-- Reading, with the number of nodes met so far. -/
abbrev Reader := StateT Nat (Except ReadError)

namespace Reader

variable {α : Type}

/-- Gives up because something else is needed. -/
def expected (what : String) : Reader α := throw (.expected what)

/-- Gives up because of a word. -/
def unknown (what word : String) : Reader α := throw (.unknown what word)

/-- Gives up with a report. -/
def refuse (report : Datum) : Reader α := throw (.refused report)

/-- The identity of the next node. -/
def fresh : Reader TreeId := modifyGet fun n => (⟨n + 1⟩, n + 1)

/-- A text. -/
def text : Datum → Reader String
  | .text s => return s
  | _ => expected "text"

/-- A truth value. -/
def bool : Datum → Reader Bool
  | .bool b => return b
  | _ => expected "truth value"

/-- An integer. -/
def int : Datum → Reader Int
  | .integer n => return n
  | _ => expected "integer"

/-- A natural number. -/
def nat (d : Datum) : Reader Nat := do
  let n ← int d
  if n < 0 then expected "natural number" else return n.toNat

/-- The default where there is no value. -/
def orElse (default : α) (read : Datum → Reader α) (d : Datum) : Reader α :=
  if d.isNull then return default else read d

/-- A value that may be missing. -/
def optional (read : Datum → Reader α) : Datum → Reader (Option α) :=
  orElse none fun d => some <$> read d

/-- A list; a missing one is empty. -/
def list (read : Datum → Reader α) : Datum → Reader (List α) :=
  orElse [] fun
    | .list elements => elements.mapM read
    | _ => expected "list"

/-- A text that is empty by default. -/
def textOr : Datum → Reader String := orElse "" text

/-- A text of formatting, empty by default. -/
def space (d : Datum) : Reader Space := return ⟨← textOr d⟩

/-- A truth value that is false by default. -/
def boolOr : Datum → Reader Bool := orElse false bool

/-- One of some words. -/
def word (what : String) (words : List (String × α)) (d : Datum) : Reader α := do
  let s ← text d
  match words.lookup s with
  | some a => return a
  | none => unknown what s

end Reader

end Lossless.Interchange
