import Lossless.Java.Equality
import Lossless.Maven.Document

/-!
# Source files

The trees that recipes work on, one for each language: a Java file, an XML document, or
the description of a project, which is an XML document with a model. A file has the
identity of its topmost node, and an edited file keeps it. So there are two ways to
compare files: by identity, and whether they are the same tree
(`Lossless.Source.isSameTree`), which an edited file and the file before are not.
-/

namespace Lossless

/-- The languages of source files. -/
inductive Language where
  | java
  | xml
  | maven
deriving DecidableEq, Repr

/-- The name of a language. -/
def Language.name : Language → String
  | .java => "java"
  | .xml => "xml"
  | .maven => "maven"

/-- A source file. -/
inductive Source where
  /-- A Java file. -/
  | java (unit : Java.CompilationUnit Java.Tree)
  /-- An XML document. -/
  | xml (document : Xml.Document Xml.Tree)
  /-- The description of a project. -/
  | maven (description : Maven.Document)

namespace Source

/-- The language of a file. -/
def language : Source → Language
  | .java _ => .java
  | .xml _ => .xml
  | .maven _ => .maven

/-- The identity of a file. -/
def id : Source → TreeId
  | .java unit => unit.id
  | .xml document => document.id
  | .maven description => description.base.id

/-- Where a file is. -/
def path : Source → String
  | .java unit => unit.sourcePath
  | .xml document => document.sourcePath
  | .maven description => description.base.sourcePath

/-- The markers of a file. -/
def markers : Source → Markers
  | .java unit => unit.markers
  | .xml document => document.markers
  | .maven description => description.base.markers

/-- The text of a file. -/
def text : Source → String
  | .java unit => print (Java.Tree.compilationUnit unit)
  | .xml document => print (Xml.Tree.document document)
  | .maven description => print (Xml.Tree.document description.base)

/-- The Java file that this is. -/
def java? : Source → Option (Java.CompilationUnit Java.Tree)
  | .java unit => some unit
  | _ => none

/-- The project description that this is. -/
def maven? : Source → Option Maven.Document
  | .maven description => some description
  | _ => none

/-- Are two files in one language and the same tree, identities included? -/
def isSameTree : Source → Source → Bool
  | .java a, .java b => a = b
  | .xml a, .xml b => a = b
  | .maven a, .maven b => a.base = b.base
  | _, _ => false

/-- The file with another text at its end. -/
def withEof (s : Source) (eof : Space) : Except Maven.MissingModel Source :=
  match s with
  | .java unit => .ok (.java { unit with eof })
  | .xml document => .ok (.xml { document with eof })
  | .maven description => .maven <$> description.edit (.eof eof)

end Source

end Lossless
