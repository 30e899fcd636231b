import Lossless.Binary

/-!
# Structured data

Values of a data format with records, lists, texts, numbers, truth values and null.
Options of recipes are given in this form, and `Lossless.Interchange` reads and writes
everything else in it: trees, types, rules, recipes. `Lossless.Json` is a way to write
them down.

A field that a record lacks reads as null.
-/

namespace Lossless

/-- A structured value. -/
inductive Datum where
  /-- No value. -/
  | null
  /-- A truth value. -/
  | bool (b : Bool)
  /-- A whole number. -/
  | integer (n : Int)
  /-- A number that is known to 53 bits, even if it happens to be a whole one. -/
  | decimal (negative : Bool) (magnitude : Binary)
  /-- A text. -/
  | text (s : String)
  /-- A list. -/
  | list (elements : List Datum)
  /-- A record: fields with their values, sorted by name. -/
  | record (fields : List (String × Datum))

namespace Datum

instance : Inhabited Datum := ⟨.null⟩

/-- A natural number. -/
def nat (n : Nat) : Datum := .integer n

/-- An integer. -/
def int (n : Int) : Datum := .integer n

/-- A list of texts. -/
def texts (ss : List String) : Datum := .list (ss.map .text)

/-- A value that may be missing. -/
def optional {α : Type} (write : α → Datum) : Option α → Datum
  | none => .null
  | some a => write a

/-- Is there no value? -/
def isNull : Datum → Bool
  | .null => true
  | _ => false

/-- A field of a record. -/
def field (d : Datum) (name : String) : Datum :=
  match d with
  | .record fields => (fields.lookup name).getD .null
  | _ => .null

/-- An element of a list. -/
def element (d : Datum) (i : Nat) : Datum :=
  match d with
  | .list elements => elements.getD i .null
  | _ => .null

mutual

/-- How deeply lists and records are nested in a value. -/
def depth : Datum → Nat
  | .list elements => depthList elements + 1
  | .record fields => depthFields fields + 1
  | _ => 1

/-- The depth of the deepest element. -/
def depthList : List Datum → Nat
  | [] => 0
  | d :: ds => max (depth d) (depthList ds)

/-- The depth of the deepest field. -/
def depthFields : List (String × Datum) → Nat
  | [] => 0
  | (_, d) :: fields => max (depth d) (depthFields fields)

end

end Datum

end Lossless
