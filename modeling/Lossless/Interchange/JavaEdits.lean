import Lossless.Interchange.JavaTrees
import Lossless.Java.Edit
import Lossless.Java.Call

/-!
# Edits and summaries of Java nodes as data

An edit names the field by the word that the field has in the data of the node. A
summary holds what can be read off a node: its printed text, its type, and what its
kind adds to that.
-/

namespace Lossless.Interchange

open Java

/-- Reads a new value for a field of a node of some kind. -/
def readEdit (kind : Kind) (name : String) (v : Datum) : Reader Edit := do
  match name, kind with
  | "prefix", _ => return .lead (← .space v)
  | "markers", _ => return .markers (← readMarkers v)
  | "package", _ => return .package (← .optional (readRight (readPackageWith readTree)) v)
  | "imports", _ => return .imports (← .list (readRight (readImportWith readTree)) v)
  | "classes", _ => return .classes (← .list (readClassDeclarationWith readTree) v)
  | "eof", _ => return .eof (← .space v)
  | "name", .fieldAccess => return .accessName (← readLeft readIdentifier v)
  | "name", _ => return .name (← readIdentifier v)
  | "extends", _ => return .superclass (← .optional (readLeft readTree) v)
  | "body", .classDeclaration => return .classBody (← readBlockWith readTree v)
  | "body", _ => return .methodBody (← .optional (readBlockWith readTree) v)
  | "class_type", _ => return .classType (← .optional readClassType v)
  | "method_type", _ => return .methodType (← .optional readMethodType v)
  | "constructor_type", _ => return .methodType (← .optional readMethodType v)
  | "parameters", _ => return .parameters (← readContainer readTree v)
  | "arguments", _ => return .arguments (← readContainer readTree v)
  | "statements", _ => return .statements (← .list (readRight readTree) v)
  | "end", _ => return .beforeEnd (← .space v)
  | "initializer", _ => return .initializer (← .optional (readLeft readTree) v)
  | "expression", .package => .unknown "field" name
  | "expression", _ => return .expression (← .optional readTree v)
  | "select", _ => return .select (← .optional (readRight readTree) v)
  | "clazz", _ => return .constructed (← readTree v)
  | "simple_name", _ => return .simpleName (← .textOr v)
  | "ty", _ => return .type (← .optional readType v)
  | "field_type", _ => return .fieldType (← .optional readVariableType v)
  | "target", _ => return .target (← readTree v)
  | "value_source", _ => return .source (← .textOr v)
  | "left", _ => return .left (← readTree v)
  | "right", _ => return .right (← readTree v)
  | _, _ => .unknown "field" name

/-- Writes whether an import is static, and what it names. -/
def summarizeImport (n : Import Tree) : Datum := .list [.bool n.isStatic, .text n.typeName]

/-- Writes the texts of some nodes. -/
def printed (ts : List Tree) : Datum := .texts (ts.map print)

/-- Writes what can be read off a call. -/
def summarizeCall (c : Call) : Datum :=
  record [.always "arguments" (.nat c.arguments.size),
    .always "real_arguments" (printed c.realArguments), .always "call_name" (.text c.name),
    .always "method_type" (.optional (fun m => .text m.name) c.methodType),
    .always "receiver_type" (.optional writeType c.receiverType)]

/-- What only nodes of some kinds have. -/
def summarizeKind : Tree → List Field
  | .methodInvocation n =>
    [.always "simple_name" (.text n.name.simpleName),
      .always "select" (.optional (fun p => .text (print p.element)) n.select)]
  | .fieldAccess n => [.always "qualified_name" (.text n.qualifiedName)]
  | .importDecl n => [.always "import" (summarizeImport n)]
  | .methodDeclaration n => [.always "real_parameters" (printed n.realParameters)]
  | .compilationUnit n =>
    [.always "imports" (.list (n.imports.map fun p => summarizeImport p.element))]
  | _ => []

/-- Writes what can be read off a node. -/
def summarizeTree (t : Tree) : Datum :=
  record <|
    [.always "kind" (.text t.kind.name), .always "prefix" (.text t.lead.text),
      .always "markers" (.nat t.markers.size), .always "text" (.text (print t)),
      .always "expression_type" (.optional writeType t.expressionType),
      .always "empty" (.bool t.isEmpty), .always "terminator" (.bool t.needsTerminator),
      .optional "call" (t.call?.map summarizeCall)] ++ summarizeKind t

end Lossless.Interchange
