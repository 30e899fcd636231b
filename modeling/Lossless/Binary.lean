/-!
# Numbers with 53 significant bits

The numbers that have an exact form `mantissa * 2 ^ exponent` with a mantissa below
`2 ^ 53`, none of them smaller than `2 ^ -1074` except zero, and what they are good for
here: a number that is not a whole one is known only up to the nearest of them
(`Lossless.Binary.nearest`). Products and quotients are rounded in the same way. Halfway
between two neighbours the one with the even mantissa is the nearest.

All computations are exact ones on natural numbers. Signs are left to those who need
them.
-/

namespace Lossless

/-- The number `mantissa * 2 ^ exponent`. -/
structure Binary where
  /-- The significant bits. -/
  mantissa : Nat
  /-- The place value of the last bit. -/
  exponent : Int
deriving DecidableEq, Repr

namespace Binary

/-- How many significant bits there are. -/
def precision : Nat := 53

/-- The place value of the last bit of the smallest numbers. -/
def leastExponent : Int := -1074

/-- The place value of the last bit of the greatest numbers. -/
def greatestExponent : Int := 971

/-! ### Numbers as fractions -/

/-- The numerator and the denominator of `n * 2 ^ e`. -/
def shifted (n : Nat) (e : Int) : Nat × Nat :=
  if 0 ≤ e then (n <<< e.toNat, 1) else (n, 1 <<< (-e).toNat)

/-- A number as a fraction. -/
def fraction (x : Binary) : Nat × Nat := shifted x.mantissa x.exponent

/-- Is this zero? -/
def isZero (x : Binary) : Bool := x.mantissa = 0

/-- Is this too great for a number with so few bits? -/
def isTooGreat (x : Binary) : Bool :=
  let limit := shifted (1 <<< precision) greatestExponent
  limit.1 * x.fraction.2 ≤ x.fraction.1 * limit.2

/-! ### Rounding -/

/-- The natural number that is nearest to a fraction; of two the even one. -/
def roundDiv (num den : Nat) : Nat :=
  let whole := num / den
  match compare (2 * (num % den)) den with
  | .lt => whole
  | .eq => whole + whole % 2
  | .gt => whole + 1

/-- The least place value of a last bit for which a fraction has no more than the
significant bits, so that rounding loses as little as possible. -/
def placeOf (num den : Nat) : Int :=
  let guess : Int := (num.log2 : Int) - (den.log2 : Int) - precision
  let (n, d) := shifted num (-guess)
  let place := if n < (d * den) <<< precision then guess else guess + 1
  max leastExponent place

/-- The nearest number to a fraction. -/
def nearest (num den : Nat) : Binary :=
  let place := placeOf num den
  let (n, d) := shifted num (-place)
  ⟨roundDiv n (d * den), place⟩

/-- The nearest number to a product. -/
def mul (x y : Binary) : Binary :=
  nearest (x.fraction.1 * y.fraction.1) (x.fraction.2 * y.fraction.2)

/-- The nearest number to a quotient. -/
def div (x y : Binary) : Binary :=
  nearest (x.fraction.1 * y.fraction.2) (x.fraction.2 * y.fraction.1)

/-! ### Powers of ten -/

/-- The nearest number to a power of ten. -/
def tenPow (k : Nat) : Binary := nearest (Nat.pow 10 k) 1

/-- The greatest power of ten that is used in one step. -/
def greatestPower : Nat := 308

/-- The number times a power of ten, rounded at each step; `none` if it is too great. -/
def scale (x : Binary) (k : Int) : Option Binary :=
  if k < -greatestPower then
    if x.isZero then some x else scale (x.div (tenPow greatestPower)) (k + greatestPower)
  else if k < 0 then some (x.div (tenPow (-k).toNat))
  else if k ≤ greatestPower then
    let y := x.mul (tenPow k.toNat)
    if y.isTooGreat then none else some y
  else if x.isZero then some x else none
termination_by (-k).toNat
decreasing_by simp only [greatestPower] at *; omega

/-! ### Decimal digits -/

/-- The decimal digits of a number before and after the point: there are finitely many,
and at least one before the point. -/
def decimal (x : Binary) : List Char × List Char :=
  let (n, d) := x.fraction
  let places := d.log2
  let digits := Nat.toDigits 10 (n * Nat.pow 5 places)
  let padded := List.replicate (places + 1 - digits.length) '0' ++ digits
  (padded.take (padded.length - places), padded.drop (padded.length - places))

end Binary

end Lossless
