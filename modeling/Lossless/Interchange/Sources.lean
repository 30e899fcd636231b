import Lossless.Interchange.Projects
import Lossless.Interchange.Rules
import Lossless.SourceVisitor

/-!
# Source files, visitors and preconditions as data

A visitor is given by a word for how it treats the rules beside it: most visitors follow
them, some only keep a record, and some do nothing at all.
-/

namespace Lossless.Interchange

/-- Writes why a visit broke off. -/
def writeFailure (e : Failure) : Datum := report "panic" e.message

/-! ### Source files -/

/-- The words for languages. -/
def languages : List (String × Language) :=
  [("java", .java), ("xml", .xml), ("maven", .maven)]

/-- Reads a source file. -/
def readSource (d : Datum) : Reader Source := do
  match ← .word "language" languages (d.field "lang") with
  | .java => return .java (← readUnit (d.field "tree"))
  | .xml => return .xml (← readDocument (d.field "tree"))
  | .maven => return .maven (← readDescription d)

/-- Writes the tree of a source file. -/
def writeSourceTree : Source → Datum
  | .java unit => writeTree (.compilationUnit unit)
  | .xml document => writeXml (.document document)
  | .maven description => writeXml (.document description.base)

/-- Writes what a source file shows, and its tree if asked to. -/
def summarizeSource (withTree : Bool) (s : Source) : Datum :=
  record [.always "lang" (.text s.language.name), .always "path" (.text s.path),
    .always "markers" (.nat s.markers.size), .always "text" (.text s.text),
    .always "is_java" (.bool s.java?.isSome), .always "is_maven" (.bool s.maven?.isSome),
    .optional "model" (s.maven?.map fun m => writePom m.model),
    .omitIf "tree" (!withTree) (writeSourceTree s)]

/-- Writes the outcome of a visit, beside the file before it and other fields. -/
def writeVisited (withTree : Bool) (before : Source) (v : Visited)
    (more : List (String × Datum)) : Datum :=
  let fields (outcome : String) (same : Bool) (after : Option Source) : Datum :=
    .record <|
      [("outcome", .text outcome), ("same", .bool same),
        ("same_id", .bool (after.any fun s => s.id = before.id)),
        ("source", .optional (summarizeSource withTree) after)] ++ more
  match v with
  | .tree w => fields "tree" (!w.isNew) (some (w.of before))
  | .deleted => fields "deleted" false none
  | .unsupported => fields "unsupported" false none

/-! ### Visitors -/

section Visitors

variable {σ : Type} {m : Type → Type} [Monad m] (log : String → StateT σ m Unit)

/-- The visitor of Java trees for a word. -/
def javaVisitor? (rules : Script) : String → Option (Java.Visitor σ m)
  | "java" => some (Java.scripted log rules)
  | "iso" => some (Java.scriptedIso log rules).toVisitor
  | "plain" => some (Java.recording log rules)
  | "plain_iso" => some (Java.recordingIso log rules).toVisitor
  | "bare" => some {}
  | "bare_iso" => some ({} : Java.IsoVisitor σ m).toVisitor
  | _ => none

/-- The visitor of XML trees for a word. -/
def xmlVisitor? (rules : Script) : String → Option (Visitor Xml.Tree σ m)
  | "xml" => some (Xml.scripted log rules)
  | "plain_xml" => some {}
  | _ => none

/-- The visitor of project descriptions for a word. -/
def mavenVisitor? (rules : Script) : String → Option (Maven.Visitor σ m)
  | "maven" => some { inside := Xml.scripted log rules }
  | "plain_maven" => some { inside := {} }
  | _ => none

end Visitors

/-- Records a line in the course of a run. -/
def logInContext (line : String) : ContextM Notes Unit := modify (·.withNotes (·.log line))

/-- Reads the visitors that are offered, each under its own flag. -/
def readCapabilities (rules : Script) (d : Datum) : Reader (Capabilities Notes) := do
  let offered (name : String) : Reader Bool := .boolOr (d.field name)
  let declines ← offered "declines"
  return {
    isAcceptable := fun _ => !declines
    java := if ← offered "java" then javaVisitor? logInContext rules "java" else none
    xml := if ← offered "xml" then xmlVisitor? logInContext rules "xml" else none
    maven := if ← offered "maven" then mavenVisitor? logInContext rules "maven" else none }

/-- Reads a visitor of source files; by default there is nothing that it supports. -/
def readSourceVisitor (d : Datum) : Reader (SourceVisitor Notes) := do
  let rules ← readScript (d.field "rules")
  match ← .orElse "noop" .text (d.field "visitor") with
  | "noop" => return .noop
  | "cancel" => return .cancelling
  | "caps" => return (← readCapabilities rules d).visitor
  | word =>
    return Capabilities.visitor {
      java := javaVisitor? logInContext rules word
      xml := xmlVisitor? logInContext rules word
      maven := mavenVisitor? logInContext rules word }

/-! ### Preconditions -/

/-- Reads a test. -/
def readTest (d : Datum) : Reader (Test Notes) := do
  match d.field "uses" with
  | .null =>
    return .fixed (← .text (d.field "fixed")) (← .boolOr (d.field "answer"))
      (← .boolOr (d.field "cancels"))
  | uses => return .usesMethod (← readMatcher uses) Notes

/-- Reads a precondition that is nested less deeply than some number. -/
def readPreconditionTo : Nat → Datum → Reader (Precondition Notes)
  | 0, _ => .expected "precondition"
  | n + 1, d =>
    match d.field "or", d.field "and", d.field "not" with
    | .list [p, q], _, _ => .either <$> readPreconditionTo n p <*> readPreconditionTo n q
    | _, .list [p, q], _ => .both <$> readPreconditionTo n p <*> readPreconditionTo n q
    | _, _, .null => .test <$> readTest d
    | _, _, p => .not <$> readPreconditionTo n p

/-- Reads a precondition. -/
def readPrecondition (d : Datum) : Reader (Precondition Notes) := readPreconditionTo d.depth d

/-- Writes how often tests were evaluated. -/
def writeEvaluations (n : Notes) : Datum :=
  .record (n.evaluations.map fun (key, k) => (key, .nat k))

end Lossless.Interchange
