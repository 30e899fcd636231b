import Lossless.Interchange.JavaTrees
import Lossless.Interchange.Scripts
import Lossless.Interchange.XmlTrees
import Lossless.Xml.Edit

/-!
# Scripts as data
-/

namespace Lossless.Interchange

/-- Reads the node that a rule puts in the place of others, of either language. -/
def readReplacement (d : Datum) : Reader RuleAction := do
  match Java.Kind.ofName? (← .text (d.field "k")) with
  | some _ => return .replaceJava (← readTree d)
  | none => return .replaceXml (← readXml d)

/-- Reads what a rule does, given what it does it with. -/
def readAction (word : String) (d : Datum) : Reader RuleAction := do
  match word with
  | "delete" => return .delete
  | "replace" => readReplacement d
  | "prefix" => return .lead (← .space d)
  | "stop" => return .stop
  | "skip" => return .skip
  | "mark" => return .mark (← .textOr d)
  | "rename" => return .rename (← .textOr d)
  | "value" => return .value (← .textOr d)
  | _ => .unknown "action" word

/-- Reads a rule. -/
def readRule (d : Datum) : Reader Rule := do
  return {
    kind := ← .text (d.field "kind")
    text := ← .optional .text (d.field "text")
    action := ← readAction (← .text (d.field "do")) (d.field "with") }

/-- Reads a script. -/
def readScript : Datum → Reader Script := .list readRule

/-! ### Messages -/

/-- Reads a message; its kind follows from its shape. -/
def readMessage : Datum → Reader Message
  | .integer n => return .int n
  | .text s => return .text s
  | .bool b => return .flag b
  | _ => .expected "message"

/-- Writes a message. -/
def writeMessage : Message → Datum
  | .int n => .int n
  | .text s => .text s
  | .flag b => .bool b

/-- Reads a kind of messages. -/
def readMessageKind : Datum → Reader MessageKind :=
  .word "kind of messages" [("int", .int), ("text", .text), ("bool", .flag)]

/-! ### XML edits -/

/-- Reads a new value for a field of a node. -/
def readXmlField (name : String) (v : Datum) : Reader Xml.Edit := do
  match name with
  | "prefix" => return .lead (← .space v)
  | "markers" => return .markers (← readMarkers v)
  | "prolog" => return .prolog (← .optional (readPrologWith readXml) v)
  | "root" => return .root (← readTag v)
  | "eof" => return .eof (← .space v)
  | "xml_decl" => return .decl (← .optional readXmlDecl v)
  | "misc" => return .misc (← .list readXml v)
  | "name" => return .name (← .textOr v)
  | "attributes" => return .attributes (← .list readAttribute v)
  | "content" => return .content (← .optional (.list readXml) v)
  | "text" => return .text (← .textOr v)
  | "value" => return .attributeValue (← readAttributeValue v)
  | _ => .unknown "field" name

end Lossless.Interchange
