import Lossless.Java.Equality

/-!
# Edits of a single field

The fields of a node that can be set, each with its new value
(`Lossless.Java.Edit`). Setting a field to a value that is alike the one it has is
no edit at all: the node stays what it is, identities below it included. Otherwise
the new node keeps the identity of the old one and all of its other fields.
-/

namespace Lossless.Java

/-- A field and its new value. -/
inductive Edit where
  | lead (value : Space)
  | markers (value : Markers)
  | package (value : Option (RightPadded (Package Tree)))
  | imports (value : List (RightPadded (Import Tree)))
  | classes (value : List (ClassDeclaration Tree))
  | eof (value : Space)
  | name (value : Identifier)
  | accessName (value : LeftPadded Identifier)
  | superclass (value : Option (LeftPadded Tree))
  | classBody (value : Block Tree)
  | methodBody (value : Option (Block Tree))
  | classType (value : Option ClassType)
  | methodType (value : Option MethodType)
  | parameters (value : Container Tree)
  | arguments (value : Container Tree)
  | statements (value : List (RightPadded Tree))
  | beforeEnd (value : Space)
  | initializer (value : Option (LeftPadded Tree))
  | expression (value : Option Tree)
  | select (value : Option (RightPadded Tree))
  | constructed (value : Tree)
  | simpleName (value : String)
  | type (value : Option JavaType)
  | fieldType (value : Option VariableType)
  | target (value : Tree)
  | source (value : String)
  | left (value : Tree)
  | right (value : Tree)

namespace Tree

/-- The node with a field set. A field that nodes of this kind do not have, or that
cannot be set, changes nothing. -/
def set (t : Tree) : Edit → Tree
  | .lead s => t.withLead s
  | .markers m => t.withMarkers m
  | .package p => match t with
    | .compilationUnit n => .compilationUnit { n with package := p }
    | _ => t
  | .imports imports => match t with
    | .compilationUnit n => .compilationUnit { n with imports }
    | _ => t
  | .classes classes => match t with
    | .compilationUnit n => .compilationUnit { n with classes }
    | _ => t
  | .eof eof => match t with
    | .compilationUnit n => .compilationUnit { n with eof }
    | _ => t
  | .name name => match t with
    | .classDeclaration n => .classDeclaration { n with name }
    | .methodDeclaration n => .methodDeclaration { n with name }
    | .variableDeclarations n => .variableDeclarations { n with name }
    | .methodInvocation n => .methodInvocation { n with name }
    | _ => t
  | .accessName name => match t with
    | .fieldAccess n => .fieldAccess { n with name }
    | _ => t
  | .superclass superclass => match t with
    | .classDeclaration n => .classDeclaration { n with superclass }
    | _ => t
  | .classBody body => match t with
    | .classDeclaration n => .classDeclaration { n with body }
    | _ => t
  | .methodBody body => match t with
    | .methodDeclaration n => .methodDeclaration { n with body }
    | _ => t
  | .classType classType => match t with
    | .classDeclaration n => .classDeclaration { n with classType }
    | _ => t
  | .methodType type => match t with
    | .methodDeclaration n => .methodDeclaration { n with methodType := type }
    | .methodInvocation n => .methodInvocation { n with methodType := type }
    | .newClass n => .newClass { n with constructorType := type }
    | _ => t
  | .parameters parameters => match t with
    | .methodDeclaration n => .methodDeclaration { n with parameters }
    | _ => t
  | .arguments arguments => match t with
    | .methodInvocation n => .methodInvocation { n with arguments }
    | .newClass n => .newClass { n with arguments }
    | _ => t
  | .statements statements => match t with
    | .block n => .block { n with statements }
    | _ => t
  | .beforeEnd beforeEnd => match t with
    | .block n => .block { n with beforeEnd }
    | _ => t
  | .initializer initializer => match t with
    | .variableDeclarations n => .variableDeclarations { n with initializer }
    | _ => t
  | .expression expression => match t with
    | .returnStmt n => .returnStmt { n with expression }
    | _ => t
  | .select select => match t with
    | .methodInvocation n => .methodInvocation { n with select }
    | _ => t
  | .constructed constructed => match t with
    | .newClass n => .newClass { n with constructed }
    | _ => t
  | .simpleName simpleName => match t with
    | .identifier n => .identifier { n with simpleName }
    | _ => t
  | .type type => match t with
    | .identifier n => .identifier { n with type }
    | .fieldAccess n => .fieldAccess { n with type }
    | _ => t
  | .fieldType fieldType => match t with
    | .identifier n => .identifier { n with fieldType }
    | _ => t
  | .target target => match t with
    | .fieldAccess n => .fieldAccess { n with target }
    | _ => t
  | .source source => match t with
    | .literal n => .literal { n with source }
    | _ => t
  | .left left => match t with
    | .binary n => .binary { n with left }
    | _ => t
  | .right right => match t with
    | .binary n => .binary { n with right }
    | _ => t

/-- The node after an edit: the node itself if the new value is alike the old one. -/
def edit (t : Tree) (e : Edit) : Tree := if (t.set e).alike t then t else t.set e

end Tree

end Lossless.Java
