import Lossless.Maven.Resolve
import Lossless.Xml.Edit

/-!
# Project descriptions

A document that describes a project carries the model of the project as a marker. The
model is part of the type `Lossless.Maven.Document`, with the proof that it is the one in
the marker: whatever is edited, tree and model cannot come apart. The price is that an
edit may fail, for one thing only, namely when it takes the marker away
(`Lossless.Maven.MissingModel`).
-/

namespace Lossless.Maven

/-- A document was to be taken for the description of a project, but it has no model. -/
structure MissingModel where
  /-- Where the document is. -/
  path : String
deriving DecidableEq, Repr

/-- The text of the error. -/
def MissingModel.message (e : MissingModel) : String :=
  "Maven document " ++ e.path ++ " has no Pom marker"

/-- A document with the model of the project that it describes. -/
structure Document where
  /-- The document itself. -/
  base : Xml.Document Xml.Tree
  /-- The model. -/
  model : Pom
  /-- Where models of other projects come from. -/
  downloader : Downloader
  /-- The model is the one that the document carries. -/
  pom?_eq : base.markers.pom? = some model

namespace Document

/-- A document that carries a model already. -/
def ofBase (base : Xml.Document Xml.Tree) (downloader : Downloader) :
    Except MissingModel Document :=
  match h : base.markers.pom? with
  | some model => .ok ⟨base, model, downloader, h⟩
  | none => .error ⟨base.sourcePath⟩

/-- A document with a model attached. -/
def attach (base : Xml.Document Xml.Tree) (model : Pom) (downloader : Downloader) : Document where
  base := { base with markers := base.markers.set (.pom model) }
  model := model
  downloader := downloader
  pom?_eq := Markers.pom?_set _ _

/-- A document with its model read off the root and attached. -/
def resolve (base : Xml.Document Xml.Tree) (downloader : Downloader) : Document :=
  attach base (Pom.resolve base.root downloader) downloader

/-- Can a document be taken for the description of a project? -/
def isDescription (base : Xml.Document Xml.Tree) : Bool := base.markers.contains .pom

/-- The models of the project's modules. They are read off the markers whenever they are asked
for, so they need no field and no proof that it is in step: a description never changes, and so what
was read off when it was made is what is read off now. -/
def modules (d : Document) : List Pom := d.base.markers.modules

/-- The markers of the document. -/
def markers (d : Document) : Markers := d.base.markers

/-- Another document in the place of this one. -/
def withBase (d : Document) (base : Xml.Document Xml.Tree) : Except MissingModel Document :=
  ofBase base d.downloader

/-- The description after an edit of the document. -/
def edit (d : Document) (e : Xml.Edit) : Except MissingModel Document := d.withBase (d.base.edit e)

/-- The description with another model. -/
def withModel (d : Document) (model : Pom) : Document := attach d.base model d.downloader

/-- The description as it appears in diagnostics. -/
def describe (d : Document) : String :=
  let version := match d.model.gav.version with
    | some v => "Some(" ++ Text.quoted v ++ ")"
    | none => "None"
  "MavenDocument \x7b source_path: " ++ Text.quoted d.base.sourcePath ++
    ", model: Gav \x7b group_id: " ++ Text.quoted d.model.gav.groupId ++
    ", artifact_id: " ++ Text.quoted d.model.gav.artifactId ++
    ", version: " ++ version ++ " \x7d, modules: " ++ toString d.modules.length ++ ", .. \x7d"

end Document

end Lossless.Maven
