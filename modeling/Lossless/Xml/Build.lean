import Lossless.Xml.Tree

/-!
# Building XML trees

Tags in their usual formatting, and the description of a small project.
-/

namespace Lossless.Xml.Build

/-- A tag with content and a closing half. -/
def tag (name : String) (lead : Space) (content : List Tree) (closingLead : Space) : Tag Tree :=
  { lead, name, content := some content, closing := some { lead := closingLead, name } }

/-- A tag that encloses a text. -/
def textTag (name : String) (lead : Space) (value : String) : Tag Tree :=
  tag name lead [.charData { text := value }] .empty

/-- The description of a project with these properties. -/
def project (properties : List (String × String)) : Document Tree :=
  let line (name value : String) : Tree := .tag (textTag name ⟨"\n    "⟩ value)
  let declared := properties.map fun (key, value) => .tag (textTag key ⟨"\n        "⟩ value)
  { sourcePath := "pom.xml"
    root := tag "project" .empty
      [line "groupId" "com.acme", line "artifactId" "app", line "version" "1.0",
        .tag (tag "properties" ⟨"\n    "⟩ declared ⟨"\n    "⟩)]
      ⟨"\n"⟩
    eof := ⟨"\n"⟩ }

end Lossless.Xml.Build
