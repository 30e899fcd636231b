import Lossless.Maven.Pom
import Lossless.Xml.Tag

/-!
# Reading project models

The model of a project is read off the root tag of its description. What the project does
not say itself it inherits: missing coordinates from the coordinates of its parent, as
they are written, and properties from the parent's model, if that can be had
(`Lossless.Maven.Downloader`). Where a tag occurs several times the first counts, but of
several properties with one name the last.
-/

namespace Lossless.Maven

/-- Where the models of other projects come from. -/
structure Downloader where
  /-- The model of the project with these coordinates. -/
  download : Gav → Option Pom

namespace Downloader

/-- No model can be had. -/
def offline : Downloader := ⟨fun _ => none⟩

/-- Some models can be had, by group and artifact; of several for one project the last
counts. -/
def ofPoms (poms : List Pom) : Downloader where
  download gav := poms.reverse.find? fun p =>
    p.gav.groupId = gav.groupId && p.gav.artifactId = gav.artifactId

end Downloader

/-- The coordinates that a tag gives, with what it leaves out taken from others. -/
def coordinates (tag : Xml.Tag Xml.Tree) (inherited : Option Gav) : Gav where
  groupId := ((tag.childValue? ["groupId"]).or (inherited.map (·.groupId))).getD ""
  artifactId := (tag.childValue? ["artifactId"]).getD ""
  version := (tag.childValue? ["version"]).or (inherited.bind (·.version))

/-- The properties that a project declares itself; one without a text is empty. -/
def declaredProperties (project : Xml.Tag Xml.Tree) : List (String × String) :=
  match project.child? "properties" with
  | some tag => tag.childTags.map fun p => (p.name, p.value?.getD "")
  | none => []

/-- The dependencies that a project declares. -/
def declaredDependencies (project : Xml.Tag Xml.Tree) : List Dependency :=
  match project.child? "dependencies" with
  | some tag => (tag.childrenNamed "dependency").map fun d =>
    { gav := coordinates d none, scope := d.childValue? ["scope"] }
  | none => []

namespace Pom

/-- The model of a project before references in its version are replaced. -/
def read (project : Xml.Tag Xml.Tree) (downloader : Downloader) : Pom :=
  let parent := (project.child? "parent").map (coordinates · none)
  let inherited := (parent.bind downloader.download).map (·.properties)
  { gav := coordinates project parent
    parent
    packaging := (project.childValue? ["packaging"]).getD "jar"
    properties := (inherited.getD .empty).insertAll (declaredProperties project)
    dependencies := declaredDependencies project }

/-- The model with references in its version replaced by what the model knows. -/
def interpolated (p : Pom) : Pom :=
  { p with gav := { p.gav with version := p.gav.version.map p.value } }

/-- The model of a project. -/
def resolve (project : Xml.Tag Xml.Tree) (downloader : Downloader) : Pom :=
  (read project downloader).interpolated

end Pom

end Lossless.Maven
