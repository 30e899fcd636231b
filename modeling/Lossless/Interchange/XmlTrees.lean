import Lossless.Interchange.Padding
import Lossless.Xml.Tree

/-!
# XML trees as data

As for Java trees: a node is a record that names its kind, readers take the reader of
what is below, and so do writers.
-/

namespace Lossless.Interchange

open Xml

/-! ### Reading -/

/-- The words for quotes. -/
def quotes : List (String × Quote) := [("double", .double), ("single", .single)]

/-- Reads the value of an attribute. -/
def readAttributeValue : Datum → Reader AttributeValue :=
  .orElse {} fun d => do
    return {
      before := ← .space (d.field "before")
      quote := ← .orElse .double (.word "quote" quotes) (d.field "quote")
      value := ← .textOr (d.field "value") }

/-- Reads an attribute. -/
def readAttribute (d : Datum) : Reader Attribute := do
  return {
    toHead := ← readHead d
    key := ← .textOr (d.field "key")
    beforeEquals := ← .space (d.field "before_equals")
    value := ← readAttributeValue (d.field "value") }

/-- Reads a declaration. -/
def readXmlDecl (d : Datum) : Reader XmlDecl := do
  return {
    toHead := ← readHead d
    name := ← .textOr (d.field "name")
    attributes := ← .list readAttribute (d.field "attributes")
    beforeClose := ← .space (d.field "before_close") }

/-- Reads the closing half of a tag. -/
def readClosing (d : Datum) : Reader Closing := do
  return {
    lead := ← .space (d.field "prefix")
    name := ← .textOr (d.field "name")
    beforeClose := ← .space (d.field "before_close") }

section Nodes

variable (tree : Datum → Reader Tree)

/-- Reads a tag. -/
def readTagWith (d : Datum) : Reader (Tag Tree) := do
  return {
    toHead := ← readHead d
    name := ← .textOr (d.field "name")
    attributes := ← .list readAttribute (d.field "attributes")
    content := ← .optional (.list tree) (d.field "content")
    beforeClose := ← .space (d.field "before_close")
    closing := ← .optional readClosing (d.field "closing") }

/-- Reads a prolog. -/
def readPrologWith (d : Datum) : Reader (Prolog Tree) := do
  return {
    toHead := ← readHead d
    decl := ← .optional readXmlDecl (d.field "xml_decl")
    misc := ← .list tree (d.field "misc") }

/-- Reads a document. -/
def readDocumentWith (d : Datum) : Reader (Document Tree) := do
  return {
    toHead := ← readHead d
    sourcePath := ← .textOr (d.field "source_path")
    prolog := ← .optional (readPrologWith tree) (d.field "prolog")
    root := ← readTagWith tree (d.field "root")
    eof := ← .space (d.field "eof") }

/-- Reads a node of the kind that it names. -/
def readXmlNodeWith (d : Datum) : Reader Tree := do
  match ← .text (d.field "k") with
  | "Document" => return .document (← readDocumentWith tree d)
  | "Prolog" => return .prolog (← readPrologWith tree d)
  | "XmlDecl" => return .xmlDecl (← readXmlDecl d)
  | "Tag" => return .tag (← readTagWith tree d)
  | "Attribute" => return .attr (← readAttribute d)
  | "CharData" =>
    return .charData {
      toHead := ← readHead d
      cdata := ← .boolOr (d.field "cdata")
      text := ← .textOr (d.field "text")
      afterText := ← .space (d.field "after_text") }
  | "Comment" => return .comment { toHead := ← readHead d, text := ← .textOr (d.field "text") }
  | k => .unknown "kind of nodes" k

end Nodes

/-- Reads a tree whose data is at most so deep. -/
def readXmlTo : Nat → Datum → Reader Tree
  | 0, _ => .expected "tree"
  | n + 1, d => readXmlNodeWith (readXmlTo n) d

/-- Reads a tree. -/
def readXml (d : Datum) : Reader Tree := readXmlTo d.depth d

/-- Reads a tag. -/
def readTag : Datum → Reader (Tag Tree) := readTagWith readXml

/-- Reads a document. -/
def readDocument : Datum → Reader (Document Tree) := readDocumentWith readXml

/-! ### Writing -/

/-- Writes the value of an attribute. -/
def writeAttributeValue (v : AttributeValue) : Datum :=
  record [.space "before" v.before, .omitIf "quote" (v.quote = .double) (wordFor quotes v.quote),
    .text "value" v.value]

/-- Writes an attribute. -/
def writeAttribute (n : Attribute) : Datum :=
  node "Attribute" n.toHead
    [.text "key" n.key, .space "before_equals" n.beforeEquals,
      .always "value" (writeAttributeValue n.value)]

/-- Writes a declaration. -/
def writeXmlDecl (n : XmlDecl) : Datum :=
  node "XmlDecl" n.toHead
    [.text "name" n.name, .list "attributes" (n.attributes.map writeAttribute),
      .space "before_close" n.beforeClose]

/-- Writes the closing half of a tag. -/
def writeClosing (c : Closing) : Datum :=
  record [.space "prefix" c.lead, .text "name" c.name, .space "before_close" c.beforeClose]

section Nodes

variable (tree : Tree → Datum)

/-- Writes a tag. -/
def writeTagWith (n : Tag Tree) : Datum :=
  node "Tag" n.toHead
    [.text "name" n.name, .list "attributes" (n.attributes.map writeAttribute),
      .optional "content" (n.content.map fun c => .list (c.map tree)),
      .space "before_close" n.beforeClose, .optional "closing" (n.closing.map writeClosing)]

/-- Writes a prolog. -/
def writePrologWith (n : Prolog Tree) : Datum :=
  node "Prolog" n.toHead
    [.optional "xml_decl" (n.decl.map writeXmlDecl), .list "misc" (n.misc.map tree)]

/-- Writes a node. -/
def writeXmlNodeWith : Tree → Datum
  | .document n =>
    node "Document" n.toHead
      [.text "source_path" n.sourcePath, .optional "prolog" (n.prolog.map (writePrologWith tree)),
        .always "root" (writeTagWith tree n.root), .space "eof" n.eof]
  | .prolog n => writePrologWith tree n
  | .xmlDecl n => writeXmlDecl n
  | .tag n => writeTagWith tree n
  | .attr n => writeAttribute n
  | .charData n =>
    node "CharData" n.toHead
      [.bool "cdata" n.cdata, .text "text" n.text, .space "after_text" n.afterText]
  | .comment n => node "Comment" n.toHead [.text "text" n.text]

end Nodes

/-- Writes a tree of at most this height. -/
def writeXmlTo : Nat → Tree → Datum
  | 0, _ => .null
  | n + 1, t => writeXmlNodeWith (writeXmlTo n) t

/-- Writes a tree. -/
def writeXml (t : Tree) : Datum := writeXmlTo (height t) t

/-- Writes what can be read off a node. -/
def summarizeXml (t : Tree) : Datum :=
  record [.always "kind" (.text t.kind.name), .always "prefix" (.text t.lead.text),
    .always "markers" (.nat t.markers.size), .always "text" (.text (print t))]

end Lossless.Interchange
