import Lossless.Datum

/-!
# Numbers in JSON

A number is written with digits, perhaps a point and more digits, perhaps a power of ten.
One that is written with digits alone is a whole number if it fits into 64 bits, with a
sign or without one. Every other number is known to 53 bits
(`Lossless.Json.Number.magnitude?`): its digits count as far as they fit into 64 bits,
and then the power of ten is applied to them, each of which is rounded. So a number with
very many digits may differ a little from the nearest one of 53 bits.
-/

namespace Lossless.Json.Number

/-- A number as it is written. -/
structure Spelling where
  /-- Is there a minus sign? -/
  negative : Bool
  /-- The digits before the point. -/
  whole : List Nat
  /-- The digits after the point, if there is one. -/
  fraction : Option (List Nat)
  /-- The power of ten, if there is one. -/
  power : Option Int
deriving DecidableEq, Repr

/-! ### Spelling -/

/-- The value of a digit. -/
def digit? (c : Char) : Option Nat := if c.isDigit then some (c.toNat - '0'.toNat) else none

/-- The digits at the start of a text, and the rest. -/
def digits (s : List Char) : List Nat × List Char :=
  ((s.takeWhile Char.isDigit).filterMap digit?, s.dropWhile Char.isDigit)

/-- The digits at the start of a text, if there are any, and the rest. -/
def someDigits? (s : List Char) : Option (List Nat × List Char) :=
  match digits s with
  | ([], _) => none
  | found => some found

/-- The number that some digits stand for. -/
def natOf (ds : List Nat) : Nat := ds.foldl (fun n d => n * 10 + d) 0

/-- A power of ten, up to the end of a text. -/
def power? (s : List Char) : Option Int := do
  let (negative, s) :=
    match s with
    | '-' :: s => (true, s)
    | '+' :: s => (false, s)
    | s => (false, s)
  let (ds, []) ← someDigits? s | none
  return if negative then -(natOf ds : Int) else natOf ds

/-- Reads the digits after a point, and a power of ten. -/
def afterWhole? (negative : Bool) (whole : List Nat) (s : List Char) : Option Spelling := do
  let (fraction, s) ←
    match s with
    | '.' :: s => (someDigits? s).map fun (ds, s) => (some ds, s)
    | s => some (none, s)
  match s with
  | [] => return { negative, whole, fraction, power := none }
  | c :: s =>
    if c = 'e' ∨ c = 'E' then
      return { negative, whole, fraction, power := some (← power? s) }
    else none

/-- Reads a number. A zero in front of other digits is refused. -/
def spelling? (s : List Char) : Option Spelling := do
  let (negative, s) :=
    match s with
    | '-' :: s => (true, s)
    | s => (false, s)
  let (whole, s) ← someDigits? s
  if whole.length > 1 ∧ whole.head? = some 0 then none else afterWhole? negative whole s

/-! ### Value -/

/-- The numbers without a sign that fit into 64 bits lie below this bound. -/
def bound : Nat := 1 <<< 64

/-- The digits of a number as far as they fit into 64 bits, after others, and how many do
not. -/
def significant (n : Nat) : List Nat → Nat × Nat
  | [] => (n, 0)
  | d :: ds => if n * 10 + d < bound then significant (n * 10 + d) ds else (n, ds.length + 1)

/-- The size of a number, to 53 bits; `none` if it is too great. -/
def magnitude? (s : Spelling) : Option Binary :=
  let fraction := s.fraction.getD []
  let (n, dropped) := significant 0 s.whole
  let (n, ignored) := significant n fraction
  let places := fraction.length - ignored
  (Binary.nearest n 1).scale ((dropped : Int) - places + s.power.getD 0)

/-- The whole number that a spelling with digits alone stands for, if it fits into 64 bits
and is no zero with a sign. -/
def integer? (s : Spelling) : Option Int :=
  if s.fraction.isNone ∧ s.power.isNone then
    let n := natOf s.whole
    if s.negative then if 0 < n ∧ 2 * n ≤ bound then some (-(n : Int)) else none
    else if n < bound then some n
    else none
  else none

/-- The value of a number. -/
def Spelling.value? (s : Spelling) : Option Datum :=
  match integer? s with
  | some n => some (.integer n)
  | none => (magnitude? s).map (.decimal s.negative)

/-- Reads a number. -/
def read? (s : List Char) : Option Datum := (spelling? s).bind Spelling.value?

/-! ### Writing -/

/-- Writes a number that is known to 53 bits, with all of its digits and always with a
point. -/
def writeDecimal (negative : Bool) (x : Binary) : String :=
  let (whole, fraction) := x.decimal
  let fraction := (fraction.reverse.dropWhile (· = '0')).reverse
  let fraction := if fraction.isEmpty then ['0'] else fraction
  (if negative then "-" else "") ++ String.ofList (whole ++ '.' :: fraction)

end Lossless.Json.Number
