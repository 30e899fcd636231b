import Lossless.Interchange.Patterns
import Lossless.Interchange.XmlTrees
import Lossless.Maven.Document

/-!
# Project descriptions as data

The models of other projects are listed beside a description; without a list no model can
be had. A document is either taken for a description as it is, which fails if it carries
no model, or the model is read off it.
-/

namespace Lossless.Interchange

open Maven

/-- Reads where models of other projects come from. -/
def readDownloader (d : Datum) : Reader Downloader := do
  match ← .optional (.list readPom) (d.field "poms") with
  | some poms => return .ofPoms poms
  | none => return .offline

/-- Writes that a document is no project description. -/
def writeMissingModel (e : MissingModel) : Datum := report "panic" e.message

/-- Reads a project description. -/
def readDescription (d : Datum) : Reader Document := do
  let base ← readDocument (d.field "tree")
  let downloader ← readDownloader d
  if ← .boolOr (d.field "wrap") then
    match Document.ofBase base downloader with
    | .ok description => return description
    | .error e => .refuse (writeMissingModel e)
  else return .resolve base downloader

/-- Writes what a project description shows. -/
def summarizeDescription (d : Document) : Datum :=
  record [.always "model" (writePom d.model),
    .always "modules" (.texts (d.modules.map (·.gav.display))),
    .always "markers" (.nat d.markers.size), .always "root" (.text d.base.root.name),
    .always "text" (.text (print (Xml.Tree.document d.base))),
    .always "is_maven" (.bool (Document.isDescription d.base)),
    .always "debug" (.text d.describe)]

end Lossless.Interchange
