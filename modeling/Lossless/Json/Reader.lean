import Lossless.Json.Token
import Lossless.Table

/-!
# Reading JSON

The tokens are read from left to right, with a stack of the lists and records that are
open, the innermost first. `Lossless.Json.Expected` says which tokens may come next. Of
two fields of a record with one name the later counts.
-/

namespace Lossless.Json

/-- A list or a record that is not complete. -/
inductive Open where
  /-- A list, with its elements so far, the latest first. -/
  | list (elements : List Datum)
  /-- A record with its fields so far, the latest first, that waits for the value of a
  field. -/
  | record (fields : List (String × Datum)) (name : String)

/-- What comes next. -/
inductive Expected where
  /-- A value. -/
  | value
  /-- The first element of a list, or its end. -/
  | firstElement
  /-- The first field of a record, or its end. -/
  | firstField
  /-- A field, after the given ones. -/
  | field (fields : List (String × Datum))
  /-- The colon after a name. -/
  | colon (fields : List (String × Datum)) (name : String)
  /-- What follows a value. -/
  | next (d : Datum)

/-- What comes after a token, and what is open then; `none` if the token is out of place. -/
def advance? : Expected → List Open → Token → Option (Expected × List Open)
  | .value, stack, .value d => some (.next d, stack)
  | .value, stack, .openList => some (.firstElement, stack)
  | .value, stack, .openRecord => some (.firstField, stack)
  | .firstElement, stack, .closeList => some (.next (.list []), stack)
  | .firstElement, stack, .value d => some (.next d, .list [] :: stack)
  | .firstElement, stack, .openList => some (.firstElement, .list [] :: stack)
  | .firstElement, stack, .openRecord => some (.firstField, .list [] :: stack)
  | .firstField, stack, .closeRecord => some (.next (.record []), stack)
  | .firstField, stack, .value (.text name) => some (.colon [] name, stack)
  | .field fields, stack, .value (.text name) => some (.colon fields name, stack)
  | .colon fields name, stack, .colon => some (.value, .record fields name :: stack)
  | .next d, .list elements :: stack, .comma => some (.value, .list (d :: elements) :: stack)
  | .next d, .list elements :: stack, .closeList =>
    some (.next (.list (d :: elements).reverse), stack)
  | .next d, .record fields name :: stack, .comma => some (.field ((name, d) :: fields), stack)
  | .next d, .record fields name :: stack, .closeRecord =>
    some (.next (.record (Table.ofList ((name, d) :: fields).reverse)), stack)
  | _, _, _ => none

/-- The value that tokens stand for, given what comes next and what is open. -/
def valueFrom? (expected : Expected) (stack : List Open) : List Token → Option Datum
  | [] =>
    match expected, stack with
    | .next d, [] => some d
    | _, _ => none
  | t :: ts =>
    (advance? expected stack t).bind fun (expected, stack) => valueFrom? expected stack ts

/-- Reads a value. -/
def read? (s : String) : Option Datum := (Token.read? s.toList).bind (valueFrom? .value [])

end Lossless.Json
