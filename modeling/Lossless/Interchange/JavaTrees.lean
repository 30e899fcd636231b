import Lossless.Interchange.Padding
import Lossless.Interchange.Types
import Lossless.Java.Tree

/-!
# Java trees as data

Every node is a record whose field `k` names its kind. A reader of one kind is given
the reader of the trees below it; a node is written around its children, which are
written first.
-/

namespace Lossless.Interchange

open Java

/-- The words for operators. -/
def operators : List (String × Operator) :=
  [("Addition", .addition), ("Subtraction", .subtraction), ("Multiplication", .multiplication),
    ("Division", .division), ("Equal", .equal), ("NotEqual", .notEqual),
    ("LessThan", .lessThan), ("GreaterThan", .greaterThan), ("And", .and), ("Or", .or)]

/-! ### Reading -/

/-- Reads a keyword. -/
def readModifier (d : Datum) : Reader Modifier := do
  return { toHead := ← readHead d, keyword := ← .textOr (d.field "keyword") }

/-- Reads a simple name. -/
def readIdentifier (d : Datum) : Reader Identifier := do
  return {
    toHead := ← readHead d
    simpleName := ← .textOr (d.field "simple_name")
    type := ← .optional readType (d.field "ty")
    fieldType := ← .optional readVariableType (d.field "field_type") }

section Nodes

variable (tree : Datum → Reader Tree)

/-- Reads a package. -/
def readPackageWith (d : Datum) : Reader (Package Tree) := do
  return { toHead := ← readHead d, expression := ← tree (d.field "expression") }

/-- Reads a field access. -/
def readAccessWith (d : Datum) : Reader (FieldAccess Tree) := do
  return {
    toHead := ← readHead d
    target := ← tree (d.field "target")
    name := ← readLeft readIdentifier (d.field "name")
    type := ← .optional readType (d.field "ty") }

/-- Reads an import. -/
def readImportWith (d : Datum) : Reader (Import Tree) := do
  return {
    toHead := ← readHead d
    staticLead := ← .optional .space (d.field "statik")
    qualified := ← readAccessWith tree (d.field "qualid") }

/-- Reads a block. -/
def readBlockWith (d : Datum) : Reader (Block Tree) := do
  return {
    toHead := ← readHead d
    statements := ← .list (readRight tree) (d.field "statements")
    beforeEnd := ← .space (d.field "end") }

/-- Reads a class declaration. -/
def readClassDeclarationWith (d : Datum) : Reader (ClassDeclaration Tree) := do
  return {
    toHead := ← readHead d
    modifiers := ← .list readModifier (d.field "modifiers")
    kindLead := ← .space (d.field "kind_prefix")
    kind := ← readClassKind (d.field "kind")
    name := ← readIdentifier (d.field "name")
    superclass := ← .optional (readLeft tree) (d.field "extends")
    body := ← readBlockWith tree (d.field "body")
    classType := ← .optional readClassType (d.field "class_type") }

/-- Reads a method declaration. -/
def readMethodDeclarationWith (d : Datum) : Reader (MethodDeclaration Tree) := do
  return {
    toHead := ← readHead d
    modifiers := ← .list readModifier (d.field "modifiers")
    returnType := ← .optional tree (d.field "return_type")
    name := ← readIdentifier (d.field "name")
    parameters := ← readContainer tree (d.field "parameters")
    body := ← .optional (readBlockWith tree) (d.field "body")
    methodType := ← .optional readMethodType (d.field "method_type") }

/-- Reads a whole file. -/
def readUnitWith (d : Datum) : Reader (CompilationUnit Tree) := do
  return {
    toHead := ← readHead d
    sourcePath := ← .textOr (d.field "source_path")
    package := ← .optional (readRight (readPackageWith tree)) (d.field "package")
    imports := ← .list (readRight (readImportWith tree)) (d.field "imports")
    classes := ← .list (readClassDeclarationWith tree) (d.field "classes")
    eof := ← .space (d.field "eof") }

/-- Reads a node of a kind. -/
def readNodeWith (d : Datum) : Kind → Reader Tree
  | .compilationUnit => return .compilationUnit (← readUnitWith tree d)
  | .package => return .package (← readPackageWith tree d)
  | .importDecl => return .importDecl (← readImportWith tree d)
  | .classDeclaration => return .classDeclaration (← readClassDeclarationWith tree d)
  | .methodDeclaration => return .methodDeclaration (← readMethodDeclarationWith tree d)
  | .block => return .block (← readBlockWith tree d)
  | .variableDeclarations =>
    return .variableDeclarations {
      toHead := ← readHead d
      modifiers := ← .list readModifier (d.field "modifiers")
      typeExpression := ← .optional tree (d.field "type_expression")
      name := ← readIdentifier (d.field "name")
      initializer := ← .optional (readLeft tree) (d.field "initializer") }
  | .returnStmt =>
    return .returnStmt {
      toHead := ← readHead d
      expression := ← .optional tree (d.field "expression") }
  | .methodInvocation =>
    return .methodInvocation {
      toHead := ← readHead d
      select := ← .optional (readRight tree) (d.field "select")
      name := ← readIdentifier (d.field "name")
      arguments := ← readContainer tree (d.field "arguments")
      methodType := ← .optional readMethodType (d.field "method_type") }
  | .newClass =>
    return .newClass {
      toHead := ← readHead d
      constructed := ← tree (d.field "clazz")
      arguments := ← readContainer tree (d.field "arguments")
      constructorType := ← .optional readMethodType (d.field "constructor_type") }
  | .identifier => return .identifier (← readIdentifier d)
  | .fieldAccess => return .fieldAccess (← readAccessWith tree d)
  | .literal =>
    return .literal {
      toHead := ← readHead d
      source := ← .textOr (d.field "value_source")
      type := ← .orElse .int readPrimitive (d.field "ty") }
  | .binary =>
    return .binary {
      toHead := ← readHead d
      left := ← tree (d.field "left")
      operator := ← readLeft (.orElse .addition (.word "operator" operators)) (d.field "operator")
      right := ← tree (d.field "right")
      type := ← .optional readType (d.field "ty") }
  | .empty => return .empty { toHead := ← readHead d }

end Nodes

/-- Reads a kind of nodes. -/
def readKind : Datum → Reader Kind := .word "kind of nodes" (Kind.all.map fun k => (k.name, k))

/-- Reads a tree whose data is at most so deep. -/
def readTreeTo : Nat → Datum → Reader Tree
  | 0, _ => .expected "tree"
  | n + 1, d => do readNodeWith (readTreeTo n) d (← readKind (d.field "k"))

/-- Reads a tree. -/
def readTree (d : Datum) : Reader Tree := readTreeTo d.depth d

/-- Reads a whole file. -/
def readUnit : Datum → Reader (CompilationUnit Tree) := readUnitWith readTree

/-! ### Writing -/

/-- A field for a node. -/
def Field.node {α : Type} (write : α → Datum) (name : String) (a : α) : Field :=
  .always name (write a)

/-- Writes a keyword. -/
def writeModifier (m : Modifier) : Datum := node "Modifier" m.toHead [.text "keyword" m.keyword]

/-- The field for the keywords in front of a declaration. -/
def Field.modifiers (ms : List Modifier) : Field := .list "modifiers" (ms.map writeModifier)

/-- Writes a simple name. -/
def writeIdentifier (n : Identifier) : Datum :=
  node "Identifier" n.toHead
    [.text "simple_name" n.simpleName, .optional "ty" (n.type.map writeType),
      .optional "field_type" (n.fieldType.map writeVariableType)]

/-- The field for the name of a declaration or a call. -/
def Field.name (n : Identifier) : Field := .always "name" (writeIdentifier n)

/-- Writes an operator into a field. -/
def Field.operator (name : String) (o : Operator) : Field :=
  .omitIf name (o = .addition) (wordFor operators o)

section Nodes

variable (tree : Tree → Datum)

/-- Writes a package. -/
def writePackageWith (n : Package Tree) : Datum :=
  node "Package" n.toHead [.always "expression" (tree n.expression)]

/-- Writes a field access. -/
def writeAccessWith (n : FieldAccess Tree) : Datum :=
  node "FieldAccess" n.toHead
    [.always "target" (tree n.target),
      .always "name" (writeLeft (.node writeIdentifier) n.name),
      .optional "ty" (n.type.map writeType)]

/-- Writes an import. -/
def writeImportWith (n : Import Tree) : Datum :=
  node "Import" n.toHead
    [.optional "statik" (n.staticLead.map fun s => .text s.text),
      .always "qualid" (writeAccessWith tree n.qualified)]

/-- Writes a block. -/
def writeBlockWith (n : Block Tree) : Datum :=
  node "Block" n.toHead
    [.list "statements" (n.statements.map (writeRight (.node tree))), .space "end" n.beforeEnd]

/-- Writes a class declaration. -/
def writeClassDeclarationWith (n : ClassDeclaration Tree) : Datum :=
  node "ClassDeclaration" n.toHead
    [.modifiers n.modifiers, .space "kind_prefix" n.kindLead, .classKind n.kind, .name n.name,
      .optional "extends" (n.superclass.map (writeLeft (.node tree))),
      .always "body" (writeBlockWith tree n.body),
      .optional "class_type" (n.classType.map writeClassType)]

/-- Writes a delimited list of trees into a field. -/
def containerField (name : String) (c : Container Tree) : Field :=
  .always name (writeContainer (.node tree) c)

/-- Writes a node. -/
def writeNodeWith : Tree → Datum
  | .compilationUnit n =>
    node "CompilationUnit" n.toHead
      [.text "source_path" n.sourcePath,
        .optional "package" (n.package.map (writeRight (.node (writePackageWith tree)))),
        .list "imports" (n.imports.map (writeRight (.node (writeImportWith tree)))),
        .list "classes" (n.classes.map (writeClassDeclarationWith tree)), .space "eof" n.eof]
  | .package n => writePackageWith tree n
  | .importDecl n => writeImportWith tree n
  | .classDeclaration n => writeClassDeclarationWith tree n
  | .methodDeclaration n =>
    node "MethodDeclaration" n.toHead
      [.modifiers n.modifiers, .optional "return_type" (n.returnType.map tree), .name n.name,
        containerField tree "parameters" n.parameters,
        .optional "body" (n.body.map (writeBlockWith tree)),
        .optional "method_type" (n.methodType.map writeMethodType)]
  | .block n => writeBlockWith tree n
  | .variableDeclarations n =>
    node "VariableDeclarations" n.toHead
      [.modifiers n.modifiers, .optional "type_expression" (n.typeExpression.map tree),
        .name n.name, .optional "initializer" (n.initializer.map (writeLeft (.node tree)))]
  | .returnStmt n => node "Return" n.toHead [.optional "expression" (n.expression.map tree)]
  | .methodInvocation n =>
    node "MethodInvocation" n.toHead
      [.optional "select" (n.select.map (writeRight (.node tree))), .name n.name,
        containerField tree "arguments" n.arguments,
        .optional "method_type" (n.methodType.map writeMethodType)]
  | .newClass n =>
    node "NewClass" n.toHead
      [.always "clazz" (tree n.constructed), containerField tree "arguments" n.arguments,
        .optional "constructor_type" (n.constructorType.map writeMethodType)]
  | .identifier n => writeIdentifier n
  | .fieldAccess n => writeAccessWith tree n
  | .literal n =>
    node "Literal" n.toHead
      [.text "value_source" n.source, .omitIf "ty" (n.type = .int) (writePrimitive n.type)]
  | .binary n =>
    node "Binary" n.toHead
      [.always "left" (tree n.left), .always "operator" (writeLeft .operator n.operator),
        .always "right" (tree n.right), .optional "ty" (n.type.map writeType)]
  | .empty n => node "Empty" n.toHead []

end Nodes

/-- Writes a tree of at most this height. -/
def writeTreeTo : Nat → Tree → Datum
  | 0, _ => .null
  | n + 1, t => writeNodeWith (writeTreeTo n) t

/-- Writes a tree. -/
def writeTree (t : Tree) : Datum := writeTreeTo (height t) t

end Lossless.Interchange
