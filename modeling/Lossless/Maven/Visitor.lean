import Lossless.Maven.Document
import Lossless.Visitor

/-!
# Visitors of project descriptions

To visit a project description is to visit its document. Afterwards a visitor may bring
the model up to date with what it did to the document. A document that the visitor would
replace by something else stays as it is. One that comes out of the visit as another document
has to carry a model again.

Two places in a description are worth recognising while one is there: the entries of its
table of properties, and its dependencies.
-/

namespace Lossless.Maven

/-- Does a traversal stand at a property of a project? -/
def isPropertyTag (c : Cursor Xml.Tree) : Bool :=
  match Xml.tagPath c with
  | ["project", "properties", _] => true
  | _ => false

/-- Does a traversal stand at a dependency of a project? -/
def isDependencyTag (c : Cursor Xml.Tree) : Bool :=
  Xml.tagPath c = ["project", "dependencies", "dependency"]

/-- What a visit of a project description does. -/
structure Visitor (σ : Type) (m : Type → Type := Id) [Monad m] where
  /-- What is done in the document. -/
  inside : Lossless.Visitor Xml.Tree σ m
  /-- What is done with the description, given what became of it. -/
  finish : Document → Update Document → Update Document := fun _ visited => visited

variable {σ : Type} {m : Type → Type} [Monad m]

/-- The traversal of a document; `none` if the document is deleted. -/
def visitBase (v : Lossless.Visitor Xml.Tree σ m) (base : Xml.Document Xml.Tree) :
    StateT σ m (Option (Update (Xml.Document Xml.Tree))) := fun s => do
  let (answer, t) ← v.run (.document base) s
  return (Answers.place Xml.Tree.document? answer, t.state)

/-- A description of which the document was visited. -/
def Document.visited (d : Document) :
    Update (Xml.Document Xml.Tree) → Except MissingModel (Update Document)
  | .same => .ok .same
  | .new base => .new <$> d.withBase base

end Lossless.Maven
