import Lossless.Datum

/-!
# Options of recipes as data

The options of a recipe come as a record, of which fields that nobody knows are ignored,
or as the list of the values in the order of the fields. In a list only values at the end
may be missing, and there may be none too many.

Each reader below accepts the values of one type and nothing else: no conversion turns a
number into a text or an absent value into a default.
-/

namespace Lossless.Options

/-- The values of some fields, so far as there are any. -/
def fields? (names : List String) : Datum → Option (List (Option Datum))
  | .record fields => some (names.map fun name => fields.lookup name)
  | .list elements =>
    if elements.length ≤ names.length then
      some (elements.map some ++ List.replicate (names.length - elements.length) none)
    else none
  | _ => none

/-- A value that may be missing. -/
def orDefault {α : Type} (default : α) (read : Datum → Option α) : Option Datum → Option α
  | none => some default
  | some d => read d

/-- A text. -/
def text? : Datum → Option String
  | .text s => some s
  | _ => none

/-- A truth value. -/
def flag? : Datum → Option Bool
  | .bool b => some b
  | _ => none

/-- An index. -/
def index? : Datum → Option UInt64
  | .integer n => if 0 ≤ n ∧ n < UInt64.size then some (.ofNat n.toNat) else none
  | _ => none

/-- An index, or the null value for none. -/
def indexOrNull? : Datum → Option (Option UInt64)
  | .null => some none
  | d => some <$> index? d

/-- One of some words; it may also be the only field of a record and have the null
value. -/
def choice? {α : Type} (words : List (String × α)) : Datum → Option α
  | .text w => words.lookup w
  | .record [(w, .null)] => words.lookup w
  | _ => none

end Lossless.Options
