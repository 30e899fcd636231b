import Lossless.Java.Call

/-!
# Deleting an argument of a call

A call without one of its arguments (`Lossless.Java.Tree.withoutArgument?`). Commas are
implied by the list of arguments, so one goes with the argument. When the first argument
goes, the next takes over the text in front of it, and when the only one goes, a
placeholder stands in for it. The attributed method loses the parameter, too.
-/

namespace Lossless.Java

/-- A method without one of its parameters. -/
def MethodType.withoutParameter (m : MethodType) (index : Nat) : MethodType :=
  { m with
    parameterNames := m.parameterNames.eraseIdx index
    parameterTypes := m.parameterTypes.eraseIdx index }

/-- The arguments that are left after one was taken out from before them: the first is
moved to where the one before was, and if there is none a placeholder is put there. -/
def closeGap (index : Nat) (removed : Tree) : List (RightPadded Tree) → List (RightPadded Tree)
  | [] => [.build (.empty (Empty.build .empty))]
  | first :: rest =>
    if index = 0 then first.withElement (first.element.withLead removed.lead) :: rest
    else first :: rest

/-- A list of arguments without one of them, and the argument that was taken out. -/
def withoutArgument? (arguments : Container Tree) (index : Nat) : Option (Container Tree × Tree) :=
  arguments.padded[index]?.map fun p =>
    (arguments.withPadded (closeGap index p.element (arguments.padded.eraseIdx index)), p.element)

/-- The name of a call, to which the method is attributed as it is now, if a method was
attributed to it at all. -/
def Identifier.attribute (n : Identifier) (m : Option MethodType) : Identifier :=
  match m, n.type with
  | some m, some _ => { n with type := some (.ofMethod m) }
  | _, _ => n

/-- A call without one of its arguments, and the argument that was taken out. -/
def Tree.withoutArgument? (t : Tree) (index : Nat) : Option (Tree × Tree) :=
  match t with
  | .methodInvocation n => do
    let (arguments, removed) ← Java.withoutArgument? n.arguments index
    let methodType := n.methodType.map (·.withoutParameter index)
    return (.methodInvocation
      { n with arguments, methodType, name := n.name.attribute methodType }, removed)
  | .newClass n => do
    let (arguments, removed) ← Java.withoutArgument? n.arguments index
    return (.newClass
      { n with arguments, constructorType := n.constructorType.map (·.withoutParameter index) },
      removed)
  | _ => none

end Lossless.Java
