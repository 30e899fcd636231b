/-!
# Identity of tree nodes

Every node of a tree carries an identity, a serial number. Copies of a node made
by editing it keep the identity; a node that the library makes itself, such as
the placeholder of an emptied argument list, carries the serial number
`Lossless.TreeId.created`. Whoever reads trees gives each node a serial number of
its own.

Written out, a serial number is laid over the 122 free bits of a universally
unique identifier of version 4 (`Lossless.TreeId.uuid`).
-/

namespace Lossless

/-- The identity of a node. -/
structure TreeId where
  /-- The number that tells this node from all others. -/
  serial : Nat
deriving DecidableEq, Repr, Inhabited

namespace TreeId

/-- The identity of nodes that the library itself makes. -/
def created : TreeId := ⟨0⟩

/-- One hexadecimal digit, in lower case; only the last four bits of `n` count. -/
def hexDigit (n : Nat) : Char := Nat.digitChar (n % 16)

/-- The last `width` hexadecimal digits of `n`, most significant first. -/
def hexDigits (width n : Nat) : List Char :=
  (List.range width).reverse.map fun i => hexDigit (n >>> (4 * i))

/-- The five groups of digits of the identifier, without the dashes. The third
group starts with the version, the fourth with the two bits of the variant. -/
def groups (id : TreeId) : List (List Char) :=
  let n := id.serial
  [ hexDigits 8 (n >>> 90),
    hexDigits 4 (n >>> 74),
    '4' :: hexDigits 3 (n >>> 62),
    hexDigit (8 + (n >>> 60) % 4) :: hexDigits 3 (n >>> 48),
    hexDigits 12 n ]

/-- The identity as a universally unique identifier of version 4. -/
def uuid (id : TreeId) : String :=
  "-".intercalate (id.groups.map String.ofList)

/-- The identity as it appears in diagnostics. -/
def describe (id : TreeId) : String := "TreeId(" ++ id.uuid ++ ")"

end TreeId

end Lossless
