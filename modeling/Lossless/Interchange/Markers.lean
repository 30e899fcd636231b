import Lossless.Interchange.Reader
import Lossless.Interchange.Writer
import Lossless.Marker

/-!
# Markers and project models as data
-/

namespace Lossless.Interchange

/-! ### Project models -/

/-- Reads coordinates. -/
def readGav (d : Datum) : Reader Maven.Gav := do
  return {
    groupId := ← .textOr (d.field "group_id")
    artifactId := ← .textOr (d.field "artifact_id")
    version := ← .optional .text (d.field "version") }

/-- Writes coordinates. -/
def writeGav (g : Maven.Gav) : Datum :=
  record [.always "group_id" (.text g.groupId), .always "artifact_id" (.text g.artifactId),
    .always "version" (.optional .text g.version)]

/-- Reads a dependency. -/
def readDependency (d : Datum) : Reader Maven.Dependency := do
  return {
    gav := ← readGav (d.field "gav")
    scope := ← .optional .text (d.field "scope") }

/-- Writes a dependency. -/
def writeDependency (d : Maven.Dependency) : Datum :=
  record [.always "gav" (writeGav d.gav), .always "scope" (.optional .text d.scope)]

/-- Reads a table of properties. -/
def readProperties : Datum → Reader Maven.Properties :=
  .orElse .empty fun
    | .record fields => return .ofList (← fields.mapM fun (k, v) => return (k, ← .text v))
    | _ => .expected "table of properties"

/-- Reads a project model. -/
def readPom (d : Datum) : Reader Maven.Pom := do
  return {
    gav := ← readGav (d.field "gav")
    parent := ← .optional readGav (d.field "parent")
    packaging := ← .textOr (d.field "packaging")
    properties := ← readProperties (d.field "properties")
    dependencies := ← .list readDependency (d.field "dependencies") }

/-- Writes a project model. -/
def writePom (p : Maven.Pom) : Datum :=
  record [.always "gav" (writeGav p.gav), .always "parent" (.optional writeGav p.parent),
    .always "packaging" (.text p.packaging),
    .always "properties" (.record (p.properties.entries.map fun (k, v) => (k, .text v))),
    .always "dependencies" (.list (p.dependencies.map writeDependency))]

/-! ### Markers -/

/-- The words for the kinds of markers. -/
def markerKinds : List (String × MarkerKind) :=
  [("label", .label), ("version", .version), ("search", .searchResult), ("pom", .pom),
    ("modules", .modules)]

/-- Reads a kind of markers. -/
def readMarkerKind : Datum → Reader MarkerKind := .word "kind of markers" markerKinds

/-- Reads a marker. -/
def readMarker (d : Datum) : Reader Marker := do
  let v := d.field "v"
  match ← readMarkerKind (d.field "m") with
  | .label => return .label (← .text v)
  | .version => return .version (← .int v)
  | .searchResult => return .searchResult (← .optional .text v)
  | .pom => return .pom (← readPom v)
  | .modules => return .modules (← .list readPom v)

/-- The content of a marker. -/
def writeMarkerValue : Marker → Datum
  | .label s => .text s
  | .version n => .int n
  | .searchResult s => .optional .text s
  | .pom p => writePom p
  | .modules ps => .list (ps.map writePom)

/-- Writes a marker. -/
def writeMarker (m : Marker) : Datum :=
  record [.always "m" (wordFor markerKinds m.kind), .always "v" (writeMarkerValue m)]

/-- Reads the markers of a node. -/
def readMarkers (d : Datum) : Reader Markers := return ⟨← .list readMarker d⟩

/-- Writes the markers of a node. -/
def writeMarkers (m : Markers) : Datum := .list (m.toList.map writeMarker)

/-- The field for markers, none by default. -/
def Field.markers (m : Markers) : Field := .omitIf "markers" m.isEmpty (writeMarkers m)

end Lossless.Interchange
