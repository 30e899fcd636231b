import Lossless.Java.Call
import Lossless.Text.Split

/-!
# Building Java trees

Nodes in their usual formatting, for whoever puts a tree together instead of reading it.
The identities of built nodes are those of nodes that were created, not read.
-/

namespace Lossless.Java

/-! ### Types -/

/-- The method with further parameters of these types, named by their positions. -/
def MethodType.withParameters (m : MethodType) (types : List JavaType) : MethodType :=
  types.foldl (fun m type => m.withParameter ("arg" ++ toString m.parameterTypes.length) type) m

namespace Build

/-! ### Expressions -/

/-- A name that is known to mean something. -/
def name (s : String) (type : Option JavaType) : Tree := .identifier (Identifier.build s type)

/-- A literal, as it is written. -/
def literal (source : String) (type : Primitive) : Tree := .literal { source, type }

/-- A text literal with this content, which is not escaped. -/
def textLiteral (content : String) : Tree := literal ("\"" ++ content ++ "\"") .string

/-- The name of a public static field of a class. -/
def staticField (owner : ClassType) (s : String) (type : JavaType) : Tree :=
  .identifier
    { Identifier.build s (some type) with
      fieldType := some
        { name := s
          owner := some (.ofClass owner)
          variableType := type
          flags := { isPublic := true, isStatic := true } } }

/-- A list of arguments, with the placeholder if there are none. -/
def arguments : List Tree → Container Tree
  | [] => { padded := [.build (.empty (Empty.build .empty))] }
  | args => { padded := args.map .build }

/-- A call of a method. -/
def invocation (select : Option Tree) (s : String) (args : List Tree)
    (methodType : Option MethodType) : Tree :=
  .methodInvocation
    { select := select.map .build
      name := Identifier.build s (methodType.map .ofMethod)
      arguments := arguments args
      methodType }

/-- A call of a constructor. -/
def newClass (c : ClassType) (args : List Tree) (constructorType : Option MethodType) : Tree :=
  .newClass
    { constructed := (name c.simpleName (some (.ofClass c))).withLead .single
      arguments := arguments args
      constructorType }

/-! ### Imports -/

/-- A name is to be imported that is not qualified. -/
structure NotQualified where
  /-- The name. -/
  name : String
deriving DecidableEq, Repr

/-- The text of the error. -/
def NotQualified.message (e : NotQualified) : String :=
  "import " ++ e.name ++ " is not a qualified name"

/-- The access to a member of a member of … of a node, given the names of the members. -/
def access? (target : Tree) : List (List Char) → Option (FieldAccess Tree)
  | [] => none
  | [s] => some { target, name := .build (Identifier.build (String.ofList s) none) }
  | s :: rest =>
    access?
      (.fieldAccess { target, name := .build (Identifier.build (String.ofList s) none) }) rest

/-- The access that a dotted name spells, if there is a dot in it. -/
def qualifiedName? (s : List Char) : Option (FieldAccess Tree) :=
  match Text.splitAt '.' s with
  | [] => none
  | first :: rest => access? (name (String.ofList first) none) rest

/-- The name of a static import without the keyword in front of it. -/
def staticName? (s : List Char) : Option (List Char) :=
  if "static ".toList.isPrefixOf s then some (s.drop 7) else none

/-- An import of a dotted name, perhaps behind the keyword of static imports. -/
def importOf (s : String) : Except NotQualified (Import Tree) :=
  let staticName := staticName? s.toList
  let imported := staticName.getD s.toList
  match qualifiedName? imported with
  | some n =>
    .ok { staticLead := staticName.map fun _ => .single, qualified := { n with lead := .single } }
  | none => .error ⟨String.ofList imported⟩

/-! ### Files -/

/-- A block with a statement on every line, behind the same text. -/
def block (lead : Space) (statements : List Tree) (indent beforeEnd : Space) : Block Tree :=
  { lead, statements := statements.map fun s => .build (s.withLead indent), beforeEnd }

/-- The method that holds the statements of `Lossless.Java.Build.unit`. -/
def method (statements : List Tree) : MethodDeclaration Tree :=
  { lead := ⟨"\n    "⟩
    returnType := some (name "void" none)
    name := { Identifier.build "m" none with lead := .single }
    parameters := arguments []
    body := some (block .single statements ⟨"\n        "⟩ ⟨"\n    "⟩) }

/-- The class that holds the method. -/
def enclosingClass (lead : Space) (m : MethodDeclaration Tree) : ClassDeclaration Tree :=
  { lead
    name := { Identifier.build "A" none with lead := .single }
    body :=
      { lead := .single, statements := [.build (.methodDeclaration m)], beforeEnd := ⟨"\n"⟩ }
    classType := some (.named "A") }

/-- Imports, each on a line of its own. -/
def importLines : List (Import Tree) → List (RightPadded (Import Tree))
  | [] => []
  | first :: rest => .build first :: rest.map fun n => .build { n with lead := ⟨"\n"⟩ }

/-- A file with imports and one class, of which the only method holds the statements. -/
def unit (imports : List (Import Tree)) (statements : List Tree) : CompilationUnit Tree :=
  { sourcePath := "A.java"
    imports := importLines imports
    classes :=
      [enclosingClass (if imports.isEmpty then .empty else ⟨"\n\n"⟩) (method statements)]
    eof := ⟨"\n"⟩ }

end Build

/-- The statements in the bodies of the methods of a file. -/
def CompilationUnit.statements (n : CompilationUnit Tree) : List Tree :=
  let members := n.classes.flatMap fun c => c.body.statements.map (·.element)
  let bodies := members.filterMap fun
    | .methodDeclaration m => m.body
    | _ => none
  bodies.flatMap fun b => b.statements.map (·.element)

end Lossless.Java
