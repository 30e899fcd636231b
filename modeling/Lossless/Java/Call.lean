import Lossless.Java.Tree

/-!
# Meaning of expressions, names and calls

What can be read off a node without looking at its surroundings: the type of an
expression, the dotted spelling of a qualified name, and a view of method calls and
constructor calls that hides which of the two a node is (`Lossless.Java.Call`).
-/

namespace Lossless.Java

/-- The simple name with this spelling and meaning. -/
def Identifier.build (simpleName : String) (type : Option JavaType) : Identifier :=
  { simpleName, type }

/-- The placeholder behind some text. -/
def Empty.build (lead : Space) : Empty := { lead }

namespace Tree

/-- The type of an expression, where attribution supplied one. -/
def expressionType : Tree → Option JavaType
  | .identifier n => n.type
  | .fieldAccess n => n.type
  | .literal n => some (.primitive n.type)
  | .binary n => n.type
  | .methodInvocation n => n.methodType.map (·.returnType)
  | .newClass n => n.constructorType.map fun m => .ofClass m.declaringType
  | _ => none

/-- A name and the names that it is qualified with, joined by dots. What is no name
counts as the empty one. -/
def qualifiedName (t : Tree) : String :=
  match t with
  | .identifier n => n.simpleName
  | .fieldAccess n => qualifiedName n.target ++ "." ++ n.name.element.simpleName
  | _ => ""
termination_by t
decreasing_by
  show n.target ∈ children (.fieldAccess n)
  simp

end Tree

/-- The dotted spelling of a field access. -/
def FieldAccess.qualifiedName (n : FieldAccess Tree) : String := (Tree.fieldAccess n).qualifiedName

/-- Does an import name a static member? -/
def Import.isStatic {α : Type} (n : Import α) : Bool := n.staticLead.isSome

/-- The imported name. -/
def Import.typeName (n : Import Tree) : String := n.qualified.qualifiedName

/-- The parameters of a method, without the placeholder of `m()`. -/
def MethodDeclaration.realParameters (n : MethodDeclaration Tree) : List Tree :=
  n.parameters.elements.filter (!·.isEmpty)

/-! ### Calls -/

/-- What method calls and constructor calls have in common. -/
structure Call where
  /-- The arguments as they stand in the tree. -/
  arguments : Container Tree
  /-- The method or constructor that is called. -/
  methodType : Option MethodType
  /-- The name to match by where there is no attribution; constructors go by the name
  that all constructors have. -/
  name : String
  /-- The type of the receiver as written: of the expression before the dot, or of the
  constructed class. -/
  receiverType : Option JavaType

/-- The arguments of a call, without placeholders. -/
def Call.realArguments (c : Call) : List Tree := c.arguments.elements.filter (!·.isEmpty)

namespace Tree

/-- A node as a call. -/
def call? : Tree → Option Call
  | .methodInvocation n => some
    { arguments := n.arguments
      methodType := n.methodType
      name := n.name.simpleName
      receiverType := n.select.bind (·.element.expressionType) }
  | .newClass n => some
    { arguments := n.arguments
      methodType := n.constructorType
      name := MethodType.constructorName
      receiverType := n.constructed.expressionType }
  | _ => none

end Tree

end Lossless.Java
