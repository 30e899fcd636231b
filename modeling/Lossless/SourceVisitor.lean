import Lossless.Maven.Visitor
import Lossless.Precondition

/-!
# Visitors of source files

What a recipe does to a file, whatever its language. Mostly that is a visitor for one
language or for several (`Lossless.Capabilities`), and files of other languages are not
supported. A project description goes to the visitor of project descriptions, or else, as
an XML document, to the visitor of XML.

The topmost node of a file stays of its kind: a visitor that would replace it by something
else leaves the file as it is.
-/

namespace Lossless

variable {ω : Type}

/-- The outcome of a visit. -/
inductive Visited where
  /-- What has become of the file. -/
  | tree (w : Update Source)
  /-- The file is to be deleted. -/
  | deleted
  /-- There is no visitor for files of this language. -/
  | unsupported

/-- The outcome of a visit that leads to such files, or to none. -/
def Visited.ofAnswer {κ : Type} (source : κ → Source) : Option (Update κ) → Visited
  | some w => .tree (w.map source)
  | none => .deleted

/-- What is done to a file. -/
abbrev SourceVisitor (ω : Type := Unit) := Source → ContextM ω Visited

namespace SourceVisitor

/-- Supports no file. -/
def noop : SourceVisitor ω := fun _ => return .unsupported

/-- Cancels the run. -/
def cancelling : SourceVisitor ω := fun _ => do
  modify Context.cancel
  return .tree .same

/-- Visits only files to which a precondition applies; others stay as they are. -/
def check (scan : Precondition ω) (action : SourceVisitor ω) : SourceVisitor ω := fun s => do
  if ← ContextM.ofState (scan.applies s) then action s else return .tree .same

end SourceVisitor

/-- The visitors for the languages. -/
structure Capabilities (ω : Type := Unit) where
  /-- Is a file to be visited at all? Others stay as they are. -/
  isAcceptable : Source → Bool := fun _ => true
  /-- The visitor of Java files. -/
  java : Option (Java.Visitor (Context ω) (Except Failure)) := none
  /-- The visitor of XML documents. -/
  xml : Option (Visitor Xml.Tree (Context ω) (Except Failure)) := none
  /-- The visitor of project descriptions. -/
  maven : Option (Maven.Visitor (Context ω) (Except Failure)) := none

/-- Visits a Java file. -/
def visitUnit (v : Java.Visitor (Context ω) (Except Failure))
    (unit : Java.CompilationUnit Java.Tree) : ContextM ω Visited := fun c => do
  let (answer, t) ← v.toVisitor.run (.compilationUnit unit) c
  return (.ofAnswer .java (Answers.place Java.Tree.unit? answer), t.state)

/-- Visits an XML document. -/
def visitDocument (v : Visitor Xml.Tree (Context ω) (Except Failure))
    (document : Xml.Document Xml.Tree) : ContextM ω Visited :=
  .ofAnswer .xml <$> Maven.visitBase v document

/-- Visits a project description. -/
def visitDescription (v : Maven.Visitor (Context ω) (Except Failure))
    (description : Maven.Document) : ContextM ω Visited := do
  match ← Maven.visitBase v.inside description.base with
  | none => return .deleted
  | some base =>
    let visited ← (description.visited base).mapError Failure.missingModel
    return .tree ((v.finish description visited).map .maven)

/-- The visitor that has these capabilities. -/
def Capabilities.visitor (k : Capabilities ω) : SourceVisitor ω := fun s =>
  if k.isAcceptable s then
    match s, k.java, k.xml, k.maven with
    | .java unit, some v, _, _ => visitUnit v unit
    | .xml document, _, some v, _ => visitDocument v document
    | .maven description, _, _, some v => visitDescription v description
    | .maven description, _, some v, none => visitDescription { inside := v } description
    | _, _, _, _ => return .unsupported
  else return .tree .same

end Lossless
