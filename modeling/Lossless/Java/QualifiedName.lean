/-!
# Fully qualified names

A fully qualified name consists of a package, whose segments are joined by dots, and
a class, whose nesting is spelled with `$`. In `com.acme.Outer$Inner` the package is
`com.acme` and the class `Outer$Inner`, with the simple name `Inner`. A nesting
spelled with a dot cannot be told from a package segment and is read as one.
-/

namespace Lossless.Java.QualifiedName

/-- What stands before the last `c`, if there is one. -/
def beforeLast? (c : Char) : List Char → Option (List Char)
  | [] => none
  | x :: s =>
    match beforeLast? c s with
    | some p => some (x :: p)
    | none => if x = c then some [] else none

/-- The package: what stands before the last dot of the outermost class's name; empty
for the default package. -/
def package (name : List Char) : List Char :=
  (beforeLast? '.' (name.takeWhile (· ≠ '$'))).getD []

/-- The class: what is left of the name once the package and its dot are dropped. -/
def className (name : List Char) : List Char :=
  if package name = [] then name else name.drop ((package name).length + 1)

/-- The simple name: the end of the class's name after its last `$` or dot. -/
def simpleName (name : List Char) : List Char :=
  ((className name).reverse.takeWhile fun c => c ≠ '$' && c ≠ '.').reverse

/-- The name with nesting spelled by dots. -/
def dotted (name : List Char) : List Char := name.map fun c => if c = '$' then '.' else c

end Lossless.Java.QualifiedName
