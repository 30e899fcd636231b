import Lossless.Java.Visitor

/-!
# Names that a tree refers to

What a piece of a program needs to have imported, to go by the types attributed to it:
classes, static fields, and static methods that are called without a receiver. Classes of
`java.lang` need no import.
-/

namespace Lossless.Java

/-- The name to import for an attributed type. -/
def importedName? : JavaType → Option String
  | .ofClass c => if c.packageName = "java.lang" then none else some c.fullyQualifiedName
  | .ofVariable ⟨name, some (.ofClass owner), _, flags⟩ =>
    if flags.isStatic then some (owner.fullyQualifiedName ++ "." ++ name) else none
  | _ => none

/-- The name to import for a call without a receiver. -/
def importedMethod? : Tree → Option String
  | .methodInvocation n =>
    match n.methodType, n.select with
    | some m, none =>
      if m.flags.isStatic then
        some (m.declaringType.fullyQualifiedName ++ "." ++ n.name.simpleName)
      else none
    | _, _ => none
  | _ => none

/-- Adds a name to a list of names without repetitions. -/
def addName (name : Option String) (names : List String) : List String :=
  match name with
  | some name => if name ∈ names then names else names ++ [name]
  | none => names

/-- Collects the names that a tree refers to. -/
def referenceCollector : Visitor (List String) where
  visitType type := modify (addName (importedName? type))
  node t walk := do
    VisitM.onState (modify (addName (importedMethod? t)))
    return some (← walk)

/-- The names that a tree refers to, in the order in which they come up. -/
def references (t : Tree) : List String := referenceCollector.toVisitor.reduce t []

end Lossless.Java
