import Lossless.Visitor
import Lossless.Java.Tree

/-!
# Visitors of Java trees

On top of `Lossless.Visitor`, a visitor of Java trees is told the types attributed to
every node that it enters (`Lossless.Java.attributedTypes`), after it has agreed to
enter the node and before it visits it.

A visitor may answer a node with a node of another kind. Most have no wish to:
`Lossless.Java.IsoVisitor` answers every node with one of the same kind, and its type
says so.
-/

namespace Lossless.Java

/-- The types attributed to a node itself. -/
def attributedTypes : Tree → List JavaType
  | .identifier n => n.type.toList ++ (n.fieldType.map .ofVariable).toList
  | .fieldAccess n => n.type.toList
  | .methodInvocation n => (n.methodType.map .ofMethod).toList
  | .newClass n => (n.constructorType.map .ofMethod).toList
  | .methodDeclaration n => (n.methodType.map .ofMethod).toList
  | .classDeclaration n => (n.classType.map .ofClass).toList
  | .binary n => n.type.toList
  | _ => []

variable {m : Type → Type} [Monad m]

/-- What a traversal of a Java tree does at every node. -/
structure Visitor (σ : Type) (m : Type → Type := Id) [Monad m] where
  /-- Runs before a node is entered. On `false` the node is left as it is, with
  everything below it. -/
  preVisit : Tree → StateT σ m Bool := fun _ => pure true
  /-- Runs for each type attributed to a node that will be entered. -/
  visitType : JavaType → StateT σ m Unit := fun _ => pure ()
  /-- Runs at a node that was entered, with the walk over its children. -/
  node : Tree → VisitM Tree σ m (Update Tree) → VisitM Tree σ m (Option (Update Tree)) :=
    fun _ walk => some <$> walk

variable {σ : Type}

/-- A visitor of Java trees as a visitor of trees. -/
def Visitor.toVisitor (v : Visitor σ m) : Lossless.Visitor Tree σ m where
  enter t := do
    if ← v.preVisit t then
      (attributedTypes t).forM v.visitType
      return true
    else
      return false
  node := v.node

/-- Nodes of the kind of `t`. -/
abbrev SameKind (t : Tree) := { u : Tree // u.kind = t.kind }

namespace SameKind

/-- A node as one of the kind of `t`, which it may not be. -/
def ofTree? (t u : Tree) : Option (SameKind t) :=
  if h : u.kind = t.kind then some ⟨u, h⟩ else none

/-- An update of `t` as one that keeps its kind, which it may not do. -/
def ofUpdate? (t : Tree) : Update Tree → Option (Update (SameKind t))
  | .same => some .same
  | .new u => (ofTree? t u).map .new

/-- A node of another kind is no answer: then `t` itself stays. -/
def ofUpdate (t : Tree) (w : Update Tree) : Update (SameKind t) := (ofUpdate? t w).getD .same

end SameKind

/-- What a traversal does at every node when nodes keep their kinds. -/
structure IsoVisitor (σ : Type) (m : Type → Type := Id) [Monad m] where
  /-- Runs before a node is entered. -/
  preVisit : Tree → StateT σ m Bool := fun _ => pure true
  /-- Runs for each type attributed to a node that will be entered. -/
  visitType : JavaType → StateT σ m Unit := fun _ => pure ()
  /-- Runs at a node that was entered, with the walk over its children. -/
  node : (t : Tree) → VisitM Tree σ m (Update (SameKind t)) →
    VisitM Tree σ m (Update (SameKind t)) := fun _ walk => walk

/-- A visitor that keeps kinds as a visitor that need not. -/
def IsoVisitor.toVisitor (v : IsoVisitor σ m) : Visitor σ m where
  preVisit := v.preVisit
  visitType := v.visitType
  node t walk := do
    return some ((← v.node t (SameKind.ofUpdate t <$> walk)).map Subtype.val)

end Lossless.Java
