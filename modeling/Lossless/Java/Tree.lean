import Lossless.Tree
import Lossless.Head
import Lossless.Answers
import Lossless.Java.Type

/-!
# Trees of Java programs

Fifteen kinds of nodes, each a structure that leaves open what its children are, and
`Lossless.Java.Tree`, which ties them together. A place that only one kind of nodes
can fill, such as the name of a method, has the type of that kind; all others hold
trees.

`Lossless.Java.Tree.pieces` prints a node, down to its children. Commas between the
elements of a list and semicolons after statements are not stored: they follow from
where the elements stand, and from `Lossless.Java.Tree.needsTerminator`.
-/

namespace Lossless.Java

/-! ### Kinds of nodes -/

/-- A simple name. -/
structure Identifier extends Head where
  /-- The name. -/
  simpleName : String
  /-- What the name means as an expression. -/
  type : Option JavaType := none
  /-- The variable that it names. -/
  fieldType : Option VariableType := none
deriving DecidableEq, Inhabited

/-- A literal. -/
structure Literal extends Head where
  /-- The literal as written, quotes included. -/
  source : String
  /-- Its type. -/
  type : Primitive := .int
deriving DecidableEq

/-- The placeholder where an element is needed and none is written, as in `foo()`. -/
structure Empty extends Head where
deriving DecidableEq

/-- A keyword such as `public`. It is part of the declaration that it stands in. -/
structure Modifier extends Head where
  /-- The keyword. -/
  keyword : String
deriving DecidableEq

/-- The operators of binary expressions. -/
inductive Operator where
  | addition
  | subtraction
  | multiplication
  | division
  | equal
  | notEqual
  | lessThan
  | greaterThan
  | and
  | or
deriving DecidableEq, Repr

/-- How an operator is written. -/
def Operator.symbol : Operator → String
  | .addition => "+"
  | .subtraction => "-"
  | .multiplication => "*"
  | .division => "/"
  | .equal => "=="
  | .notEqual => "!="
  | .lessThan => "<"
  | .greaterThan => ">"
  | .and => "&&"
  | .or => "||"

/-- The keyword of a class declaration. -/
def ClassKind.keyword : ClassKind → String
  | .classKind => "class"
  | .interfaceKind => "interface"
  | .enumKind => "enum"
  | .recordKind => "record"
  | .annotationKind => "@interface"

/-- `package com.acme` -/
structure Package (α : Type) extends Head where
  /-- The name of the package. -/
  expression : α
deriving DecidableEq

/-- `target.name` -/
structure FieldAccess (α : Type) extends Head where
  /-- What stands before the dot. -/
  target : α
  /-- The name, after the text before the dot. -/
  name : LeftPadded Identifier
  /-- What the access means. -/
  type : Option JavaType := none
deriving DecidableEq

/-- `import com.acme.Foo` or `import static com.acme.Foo.bar` -/
structure Import (α : Type) extends Head where
  /-- The text before the keyword of a static import. -/
  staticLead : Option Space := none
  /-- The imported name. -/
  qualified : FieldAccess α
deriving DecidableEq

/-- `{ statements }` -/
structure Block (α : Type) extends Head where
  /-- The statements, each with the text before its semicolon. -/
  statements : List (RightPadded α) := []
  /-- The text before the closing brace. -/
  beforeEnd : Space := .empty
deriving DecidableEq

/-- `return expression` -/
structure Return (α : Type) extends Head where
  /-- What is returned. -/
  expression : Option α := none
deriving DecidableEq

/-- One declared variable, `String s = "x"`; parameters are declared likewise. -/
structure VariableDeclarations (α : Type) extends Head where
  /-- The keywords in front. -/
  modifiers : List Modifier := []
  /-- The type as written. -/
  typeExpression : Option α := none
  /-- The name of the variable. -/
  name : Identifier
  /-- The initial value, after the text before `=`. -/
  initializer : Option (LeftPadded α) := none
deriving DecidableEq

/-- The declaration of a class. -/
structure ClassDeclaration (α : Type) extends Head where
  /-- The keywords in front. -/
  modifiers : List Modifier := []
  /-- The text before the keyword of the kind. -/
  kindLead : Space := .empty
  /-- What is declared. -/
  kind : ClassKind := .classKind
  /-- The name of the class. -/
  name : Identifier
  /-- The superclass, after the text before its keyword. -/
  superclass : Option (LeftPadded α) := none
  /-- The members. -/
  body : Block α
  /-- The class that is declared. -/
  classType : Option ClassType := none
deriving DecidableEq

/-- The declaration of a method or a constructor. -/
structure MethodDeclaration (α : Type) extends Head where
  /-- The keywords in front. -/
  modifiers : List Modifier := []
  /-- The type of the result as written; a constructor has none. -/
  returnType : Option α := none
  /-- The name of the method. -/
  name : Identifier
  /-- The parameters. -/
  parameters : Container α := .empty
  /-- The statements; an abstract method has none. -/
  body : Option (Block α) := none
  /-- The method that is declared. -/
  methodType : Option MethodType := none
deriving DecidableEq

/-- `select.name(arguments)` or `name(arguments)` -/
structure MethodInvocation (α : Type) extends Head where
  /-- The receiver, with the text before the dot. -/
  select : Option (RightPadded α) := none
  /-- The name of the called method. -/
  name : Identifier
  /-- The arguments. -/
  arguments : Container α := .empty
  /-- The method that is called. -/
  methodType : Option MethodType := none
deriving DecidableEq

/-- `new Constructed(arguments)` -/
structure NewClass (α : Type) extends Head where
  /-- The class as written. -/
  constructed : α
  /-- The arguments. -/
  arguments : Container α := .empty
  /-- The constructor that is called. -/
  constructorType : Option MethodType := none
deriving DecidableEq

/-- `left + right` -/
structure Binary (α : Type) extends Head where
  /-- The left operand. -/
  left : α
  /-- The operator, after the text before it. -/
  operator : LeftPadded Operator
  /-- The right operand. -/
  right : α
  /-- What the expression means. -/
  type : Option JavaType := none
deriving DecidableEq

/-- A whole file. -/
structure CompilationUnit (α : Type) extends Head where
  /-- Where the file is. -/
  sourcePath : String := ""
  /-- The package, with the text before its semicolon. -/
  package : Option (RightPadded (Package α)) := none
  /-- The imports, each with the text before its semicolon. -/
  imports : List (RightPadded (Import α)) := []
  /-- The declared classes. -/
  classes : List (ClassDeclaration α) := []
  /-- The text at the end of the file. -/
  eof : Space := .empty
deriving DecidableEq

/-! ### Trees -/

/-- A tree: a node of one of the kinds whose children are trees. -/
inductive Tree where
  | compilationUnit (n : CompilationUnit Tree)
  | package (n : Package Tree)
  | importDecl (n : Import Tree)
  | classDeclaration (n : ClassDeclaration Tree)
  | methodDeclaration (n : MethodDeclaration Tree)
  | block (n : Block Tree)
  | variableDeclarations (n : VariableDeclarations Tree)
  | returnStmt (n : Return Tree)
  | methodInvocation (n : MethodInvocation Tree)
  | newClass (n : NewClass Tree)
  | identifier (n : Identifier)
  | fieldAccess (n : FieldAccess Tree)
  | literal (n : Literal)
  | binary (n : Binary Tree)
  | empty (n : Empty)

/-- The kinds of nodes. -/
inductive Kind where
  | compilationUnit
  | package
  | importDecl
  | classDeclaration
  | methodDeclaration
  | block
  | variableDeclarations
  | returnStmt
  | methodInvocation
  | newClass
  | identifier
  | fieldAccess
  | literal
  | binary
  | empty
deriving DecidableEq, Repr

namespace Kind

/-- All kinds. -/
def all : List Kind :=
  [.compilationUnit, .package, .importDecl, .classDeclaration, .methodDeclaration, .block,
    .variableDeclarations, .returnStmt, .methodInvocation, .newClass, .identifier,
    .fieldAccess, .literal, .binary, .empty]

/-- The name of a kind. -/
def name : Kind → String
  | .compilationUnit => "CompilationUnit"
  | .package => "Package"
  | .importDecl => "Import"
  | .classDeclaration => "ClassDeclaration"
  | .methodDeclaration => "MethodDeclaration"
  | .block => "Block"
  | .variableDeclarations => "VariableDeclarations"
  | .returnStmt => "Return"
  | .methodInvocation => "MethodInvocation"
  | .newClass => "NewClass"
  | .identifier => "Identifier"
  | .fieldAccess => "FieldAccess"
  | .literal => "Literal"
  | .binary => "Binary"
  | .empty => "Empty"

/-- The kind of a name. -/
def ofName? (s : String) : Option Kind := all.find? (·.name = s)

end Kind

namespace Tree

/-- The kind of a node. -/
def kind : Tree → Kind
  | .compilationUnit _ => .compilationUnit
  | .package _ => .package
  | .importDecl _ => .importDecl
  | .classDeclaration _ => .classDeclaration
  | .methodDeclaration _ => .methodDeclaration
  | .block _ => .block
  | .variableDeclarations _ => .variableDeclarations
  | .returnStmt _ => .returnStmt
  | .methodInvocation _ => .methodInvocation
  | .newClass _ => .newClass
  | .identifier _ => .identifier
  | .fieldAccess _ => .fieldAccess
  | .literal _ => .literal
  | .binary _ => .binary
  | .empty _ => .empty

/-- Identity, leading text and markers of a node. -/
def head : Tree → Head
  | .compilationUnit n => n.toHead
  | .package n => n.toHead
  | .importDecl n => n.toHead
  | .classDeclaration n => n.toHead
  | .methodDeclaration n => n.toHead
  | .block n => n.toHead
  | .variableDeclarations n => n.toHead
  | .returnStmt n => n.toHead
  | .methodInvocation n => n.toHead
  | .newClass n => n.toHead
  | .identifier n => n.toHead
  | .fieldAccess n => n.toHead
  | .literal n => n.toHead
  | .binary n => n.toHead
  | .empty n => n.toHead

/-- The node under another head. -/
def withHead (h : Head) : Tree → Tree
  | .compilationUnit n => .compilationUnit { n with toHead := h }
  | .package n => .package { n with toHead := h }
  | .importDecl n => .importDecl { n with toHead := h }
  | .classDeclaration n => .classDeclaration { n with toHead := h }
  | .methodDeclaration n => .methodDeclaration { n with toHead := h }
  | .block n => .block { n with toHead := h }
  | .variableDeclarations n => .variableDeclarations { n with toHead := h }
  | .returnStmt n => .returnStmt { n with toHead := h }
  | .methodInvocation n => .methodInvocation { n with toHead := h }
  | .newClass n => .newClass { n with toHead := h }
  | .identifier n => .identifier { n with toHead := h }
  | .fieldAccess n => .fieldAccess { n with toHead := h }
  | .literal n => .literal { n with toHead := h }
  | .binary n => .binary { n with toHead := h }
  | .empty n => .empty { n with toHead := h }

/-- The identity of a node. -/
def id (t : Tree) : TreeId := t.head.id

/-- The text in front of a node. -/
def lead (t : Tree) : Space := t.head.lead

/-- The markers of a node. -/
def markers (t : Tree) : Markers := t.head.markers

/-- The node behind another text. -/
def withLead (lead : Space) (t : Tree) : Tree := t.withHead { t.head with lead }

/-- The node with other markers. -/
def withMarkers (markers : Markers) (t : Tree) : Tree := t.withHead { t.head with markers }

/-! ### Nodes of a known kind -/

/-- The whole file that a node is. -/
def unit? : Tree → Option (CompilationUnit Tree)
  | .compilationUnit n => some n
  | _ => none

/-- The package that a node is. -/
def package? : Tree → Option (Package Tree)
  | .package n => some n
  | _ => none

/-- The import that a node is. -/
def import? : Tree → Option (Import Tree)
  | .importDecl n => some n
  | _ => none

/-- The class declaration that a node is. -/
def class? : Tree → Option (ClassDeclaration Tree)
  | .classDeclaration n => some n
  | _ => none

/-- The block that a node is. -/
def block? : Tree → Option (Block Tree)
  | .block n => some n
  | _ => none

/-- The simple name that a node is. -/
def identifier? : Tree → Option Identifier
  | .identifier n => some n
  | _ => none

/-- The field access that a node is. -/
def fieldAccess? : Tree → Option (FieldAccess Tree)
  | .fieldAccess n => some n
  | _ => none

/-- Is this the placeholder of an element that is not written? -/
def isEmpty : Tree → Bool
  | .empty _ => true
  | _ => false

/-- Does a semicolon follow this node when it stands as a statement? -/
def needsTerminator : Tree → Bool
  | .block _ | .classDeclaration _ => false
  | .methodDeclaration n => n.body.isNone
  | _ => true

/-! ### Printing -/

/-- Elements with commas between them. -/
def separated : List (RightPadded Tree) → List (Piece Tree)
  | [] => []
  | [p] => [.child p.element, .text p.after.text]
  | p :: q :: ps => .child p.element :: .text p.after.text :: .text "," :: separated (q :: ps)

/-- A list in parentheses. -/
def parenthesized (c : Container Tree) : List (Piece Tree) :=
  .text c.before.text :: .text "(" :: (separated c.padded ++ [.text ")"])

/-- A statement and the semicolon that it needs. -/
def statement (p : RightPadded Tree) : List (Piece Tree) :=
  [.child p.element, .text p.after.text] ++ if p.element.needsTerminator then [.text ";"] else []

/-- A keyword and the text in front of it. -/
def modifier (m : Modifier) : List (Piece Tree) := [.text m.lead.text, .text m.keyword]

/-- A node that ends in a semicolon. -/
def terminated {κ : Type} (tree : κ → Tree) (p : RightPadded κ) : List (Piece Tree) :=
  [.child (tree p.element), .text p.after.text, .text ";"]

/-- An optional node behind a token. -/
def introduced (token : String) : Option (LeftPadded Tree) → List (Piece Tree)
  | none => []
  | some p => [.text p.before.text, .text token, .child p.element]

/-- The keyword of a static import. -/
def staticKeyword : Option Space → List (Piece Tree)
  | none => []
  | some s => [.text s.text, .text "static"]

/-- The receiver of a call and the dot after it. -/
def receiver : Option (RightPadded Tree) → List (Piece Tree)
  | none => []
  | some p => [.child p.element, .text p.after.text, .text "."]

/-- What a node is printed as after the text in front of it. -/
def body : Tree → List (Piece Tree)
  | .compilationUnit n =>
    n.package.toList.flatMap (terminated .package) ++
      n.imports.flatMap (terminated .importDecl) ++
      n.classes.map (fun c => .child (.classDeclaration c)) ++ [.text n.eof.text]
  | .package n => [.text "package", .child n.expression]
  | .importDecl n =>
    .text "import" :: staticKeyword n.staticLead ++ [.child (.fieldAccess n.qualified)]
  | .classDeclaration n =>
    n.modifiers.flatMap modifier ++
      [.text n.kindLead.text, .text n.kind.keyword, .child (.identifier n.name)] ++
      introduced "extends" n.superclass ++ [.child (.block n.body)]
  | .methodDeclaration n =>
    n.modifiers.flatMap modifier ++ n.returnType.toList.map .child ++
      [.child (.identifier n.name)] ++ parenthesized n.parameters ++
      n.body.toList.map (fun b => .child (.block b))
  | .block n =>
    .text "\x7b" :: n.statements.flatMap statement ++ [.text n.beforeEnd.text, .text "\x7d"]
  | .variableDeclarations n =>
    n.modifiers.flatMap modifier ++ n.typeExpression.toList.map .child ++
      [.child (.identifier n.name)] ++ introduced "=" n.initializer
  | .returnStmt n => .text "return" :: n.expression.toList.map .child
  | .methodInvocation n =>
    receiver n.select ++ [.child (.identifier n.name)] ++ parenthesized n.arguments
  | .newClass n => [.text "new", .child n.constructed] ++ parenthesized n.arguments
  | .identifier n => [.text n.simpleName]
  | .fieldAccess n =>
    [.child n.target, .text n.name.before.text, .text ".", .child (.identifier n.name.element)]
  | .literal n => [.text n.source]
  | .binary n =>
    [.child n.left, .text n.operator.before.text, .text n.operator.element.symbol,
      .child n.right]
  | .empty _ => []

/-- What a node is printed as. -/
def pieces (t : Tree) : List (Piece Tree) := .text t.lead.text :: t.body

/-! ### Updating -/

/-- Reads the answers for the children of a node. -/
def answered : Tree → Answers Tree Tree
  | .compilationUnit n => do
    let package ← .optional (Answers.rightFixed package?) n.package
    let imports ← .list (Answers.rightFixed import?) n.imports
    let classes ← .list (Answers.plainFixed class?) n.classes
    return .compilationUnit { n with package, imports, classes }
  | .package n => return .package { n with expression := ← .required n.expression }
  | .importDecl n =>
    return .importDecl { n with qualified := ← .fixed fieldAccess? n.qualified }
  | .classDeclaration n => do
    let name ← .fixed identifier? n.name
    let superclass ← .optional Answers.left n.superclass
    let body ← .fixed block? n.body
    return .classDeclaration { n with name, superclass, body }
  | .methodDeclaration n => do
    let returnType ← .optional Answers.plain n.returnType
    let name ← .fixed identifier? n.name
    let parameters ← .container n.parameters
    let body ← .optional (Answers.plainFixed block?) n.body
    return .methodDeclaration { n with returnType, name, parameters, body }
  | .block n => return .block { n with statements := ← .list Answers.right n.statements }
  | .variableDeclarations n => do
    let typeExpression ← .optional Answers.plain n.typeExpression
    let name ← .fixed identifier? n.name
    let initializer ← .optional Answers.left n.initializer
    return .variableDeclarations { n with typeExpression, name, initializer }
  | .returnStmt n =>
    return .returnStmt { n with expression := ← .optional Answers.plain n.expression }
  | .methodInvocation n => do
    let select ← .optional Answers.right n.select
    let name ← .fixed identifier? n.name
    let arguments ← .container n.arguments
    return .methodInvocation { n with select, name, arguments }
  | .newClass n => do
    let constructed ← .required n.constructed
    let arguments ← .container n.arguments
    return .newClass { n with constructed, arguments }
  | .fieldAccess n => do
    let target ← .required n.target
    let name ← .fixed identifier? n.name.element
    return .fieldAccess { n with target, name := n.name.withElement name }
  | .binary n => do
    let left ← .required n.left
    let right ← .required n.right
    return .binary { n with left, right }
  | .identifier n => return .identifier n
  | .literal n => return .literal n
  | .empty n => return .empty n

/-- What becomes of a node, given what becomes of its children. -/
def update (t : Tree) (answers : List (Option (Update Tree))) : Update Tree :=
  t.answered.result answers

/-! ### Trees of this language are lossless trees -/

theorem child_mem_separated {ps : List (RightPadded Tree)} {c : Tree} :
    .child c ∈ separated ps ↔ ∃ p ∈ ps, c = p.element := by
  induction ps using separated.induct with
  | case1 => simp [separated]
  | case2 p => simp [separated]
  | case3 p q ps ih => simp [separated, ih]

theorem child_mem_parenthesized {l : Container Tree} {c : Tree} :
    .child c ∈ parenthesized l ↔ ∃ p ∈ l.padded, c = p.element := by
  simp [parenthesized, child_mem_separated]

theorem sizeOf_element_lt {α : Type} [SizeOf α] (p : RightPadded α) :
    sizeOf p.element < sizeOf p := by
  cases p; simp; omega

theorem sizeOf_element_lt_left {α : Type} [SizeOf α] (p : LeftPadded α) :
    sizeOf p.element < sizeOf p := by
  cases p; simp; omega

theorem sizeOf_lt_of_mem_padded {p : RightPadded Tree} {ps : List (RightPadded Tree)}
    (h : p ∈ ps) : sizeOf p.element < sizeOf ps :=
  Nat.lt_trans (sizeOf_element_lt p) (List.sizeOf_lt_of_mem h)

theorem sizeOf_padded_lt (c : Container Tree) : sizeOf c.padded < sizeOf c := by
  cases c; simp; omega

theorem child_mem_introduced {token : String} {o : Option (LeftPadded Tree)} {c : Tree} :
    .child c ∈ introduced token o ↔ ∃ p ∈ o, c = p.element := by
  cases o <;> simp [introduced]

theorem child_mem_statement {p : RightPadded Tree} {c : Tree} :
    .child c ∈ statement p ↔ c = p.element := by
  unfold statement; split <;> simp

theorem child_mem_staticKeyword {o : Option Space} {c : Tree} : ¬.child c ∈ staticKeyword o := by
  cases o <;> simp [staticKeyword]

theorem child_mem_receiver {o : Option (RightPadded Tree)} {c : Tree} :
    .child c ∈ receiver o ↔ ∃ p ∈ o, c = p.element := by
  cases o <;> simp [receiver]

/-- A child is smaller than the node, by which the recursion over trees ends. -/
theorem sizeOf_lt_of_mem_pieces {t c : Tree} (h : .child c ∈ pieces t) : sizeOf c < sizeOf t := by
  cases t with
  | compilationUnit n =>
    obtain ⟨hd, path, package, imports, classes, eof⟩ := n
    simp [pieces, body, terminated] at h
    rcases h with ⟨p, rfl, rfl⟩ | ⟨p, hp, rfl⟩ | ⟨d, hd, rfl⟩
    · have := sizeOf_element_lt p; simp; omega
    · have := sizeOf_element_lt p; have := List.sizeOf_lt_of_mem hp; simp; omega
    · have := List.sizeOf_lt_of_mem hd; simp; omega
  | package n => cases n; simp_all [pieces, body]; omega
  | importDecl n =>
    obtain ⟨hd, staticLead, qualified⟩ := n
    simp [pieces, body, child_mem_staticKeyword] at h
    subst h
    simp only [importDecl.sizeOf_spec, Import.mk.sizeOf_spec, fieldAccess.sizeOf_spec]
    omega
  | classDeclaration n =>
    obtain ⟨hd, ms, kl, k, name, superclass, block, ty⟩ := n
    simp [pieces, body, modifier, child_mem_introduced] at h
    rcases h with rfl | ⟨p, rfl, rfl⟩ | rfl
    · simp; omega
    · have := sizeOf_element_lt_left p; simp; omega
    · simp; omega
  | methodDeclaration n =>
    obtain ⟨hd, ms, returnType, name, parameters, block, ty⟩ := n
    simp [pieces, body, modifier, child_mem_parenthesized] at h
    rcases h with rfl | rfl | ⟨p, hp, rfl⟩ | ⟨b, rfl, rfl⟩
    · simp; omega
    · simp; omega
    · have := sizeOf_lt_of_mem_padded hp; have := sizeOf_padded_lt parameters; simp; omega
    · simp; omega
  | block n =>
    obtain ⟨hd, statements, e⟩ := n
    simp [pieces, body, child_mem_statement] at h
    obtain ⟨p, hp, rfl⟩ := h
    have := sizeOf_lt_of_mem_padded hp; simp; omega
  | variableDeclarations n =>
    obtain ⟨hd, ms, typeExpression, name, initializer⟩ := n
    simp [pieces, body, modifier, child_mem_introduced] at h
    rcases h with rfl | rfl | ⟨p, rfl, rfl⟩
    · simp; omega
    · simp; omega
    · have := sizeOf_element_lt_left p; simp; omega
  | returnStmt n => cases n; simp [pieces, body] at h; subst h; simp; omega
  | methodInvocation n =>
    obtain ⟨hd, select, name, arguments, ty⟩ := n
    simp [pieces, body, child_mem_receiver, child_mem_parenthesized] at h
    rcases h with ⟨p, rfl, rfl⟩ | rfl | ⟨p, hp, rfl⟩
    · have := sizeOf_element_lt p; simp; omega
    · simp; omega
    · have := sizeOf_lt_of_mem_padded hp; have := sizeOf_padded_lt arguments; simp; omega
  | newClass n =>
    obtain ⟨hd, constructed, arguments, ty⟩ := n
    simp [pieces, body, child_mem_parenthesized] at h
    rcases h with rfl | ⟨p, hp, rfl⟩
    · simp; omega
    · have := sizeOf_lt_of_mem_padded hp; have := sizeOf_padded_lt arguments; simp; omega
  | fieldAccess n =>
    obtain ⟨hd, target, name, ty⟩ := n
    simp [pieces, body] at h
    rcases h with rfl | rfl
    · simp; omega
    · have := sizeOf_element_lt_left name; simp; omega
  | binary n =>
    obtain ⟨hd, left, op, right, ty⟩ := n
    simp [pieces, body] at h
    rcases h with rfl | rfl <;> simp <;> omega
  | identifier n => simp [pieces, body] at h
  | literal n => simp [pieces, body] at h
  | empty n => simp [pieces, body] at h

instance : Node Tree where
  pieces := pieces
  update := update
  wellFounded := Subrelation.wf sizeOf_lt_of_mem_pieces (measure sizeOf).wf

/-! ### The children of each kind -/

/-- The children of a node stand in its body: no child stands in front of it. -/
theorem children_eq (t : Tree) : children t = childrenOf t.body := rfl

@[simp]
theorem childrenOf_modifiers (ms : List Modifier) : childrenOf (ms.flatMap modifier) = [] := by
  induction ms <;> simp_all [modifier]

/-- The children of elements with a terminator each are the elements. -/
@[simp]
theorem childrenOf_terminated {κ : Type} (tree : κ → Tree) (ps : List (RightPadded κ)) :
    childrenOf (ps.flatMap (terminated tree)) = ps.map fun p => tree p.element := by
  induction ps <;> simp_all [terminated]

/-- The children of statements are the statements. -/
@[simp]
theorem childrenOf_statements (ps : List (RightPadded Tree)) :
    childrenOf (ps.flatMap statement) = ps.map (·.element) := by
  induction ps with
  | nil => rfl
  | cons p ps ih => simp only [List.flatMap_cons, statement]; split <;> simp [ih]

/-- The children of a list with separators are its elements. -/
@[simp]
theorem childrenOf_separated (ps : List (RightPadded Tree)) :
    childrenOf (separated ps) = ps.map (·.element) := by
  induction ps using separated.induct <;> simp_all [separated]

/-- The children of a list in parentheses are its elements. -/
@[simp]
theorem childrenOf_parenthesized (c : Container Tree) :
    childrenOf (parenthesized c) = c.elements := by
  simp [parenthesized, Container.elements]

@[simp]
theorem childrenOf_introduced (token : String) (o : Option (LeftPadded Tree)) :
    childrenOf (introduced token o) = o.toList.map (·.element) := by
  cases o <;> simp [introduced]

@[simp]
theorem childrenOf_staticKeyword (o : Option Space) : childrenOf (staticKeyword o) = [] := by
  cases o <;> simp [staticKeyword]

@[simp]
theorem childrenOf_receiver (o : Option (RightPadded Tree)) :
    childrenOf (receiver o) = o.toList.map (·.element) := by
  cases o <;> simp [receiver]

@[simp]
theorem children_compilationUnit (n : CompilationUnit Tree) :
    children (compilationUnit n) =
      n.package.toList.map (fun p => .package p.element) ++
        (n.imports.map (fun p => .importDecl p.element) ++ n.classes.map .classDeclaration) := by
  simp [children_eq, body]

@[simp]
theorem children_package (n : Package Tree) : children (package n) = [n.expression] := by
  simp [children_eq, body]

@[simp]
theorem children_importDecl (n : Import Tree) :
    children (importDecl n) = [.fieldAccess n.qualified] := by
  simp [children_eq, body]

@[simp]
theorem children_classDeclaration (n : ClassDeclaration Tree) :
    children (classDeclaration n) =
      .identifier n.name :: (n.superclass.toList.map (·.element) ++ [.block n.body]) := by
  simp [children_eq, body]

@[simp]
theorem children_methodDeclaration (n : MethodDeclaration Tree) :
    children (methodDeclaration n) =
      n.returnType.toList ++
        .identifier n.name :: (n.parameters.elements ++ n.body.toList.map .block) := by
  simp [children_eq, body]

@[simp]
theorem children_block (n : Block Tree) : children (block n) = n.statements.map (·.element) := by
  simp [children_eq, body]

@[simp]
theorem children_variableDeclarations (n : VariableDeclarations Tree) :
    children (variableDeclarations n) =
      n.typeExpression.toList ++ .identifier n.name :: n.initializer.toList.map (·.element) := by
  simp [children_eq, body]

@[simp]
theorem children_returnStmt (n : Return Tree) :
    children (returnStmt n) = n.expression.toList := by
  simp [children_eq, body]

@[simp]
theorem children_methodInvocation (n : MethodInvocation Tree) :
    children (methodInvocation n) =
      n.select.toList.map (·.element) ++ .identifier n.name :: n.arguments.elements := by
  simp [children_eq, body]

@[simp]
theorem children_newClass (n : NewClass Tree) :
    children (newClass n) = n.constructed :: n.arguments.elements := by
  simp [children_eq, body]

@[simp]
theorem children_fieldAccess (n : FieldAccess Tree) :
    children (fieldAccess n) = [n.target, .identifier n.name.element] := by
  simp [children_eq, body]

@[simp]
theorem children_binary (n : Binary Tree) : children (binary n) = [n.left, n.right] := by
  simp [children_eq, body]

@[simp]
theorem children_identifier (n : Identifier) : children (identifier n) = [] := by
  simp [children_eq, body]

@[simp]
theorem children_literal (n : Literal) : children (literal n) = [] := by
  simp [children_eq, body]

@[simp]
theorem children_empty (n : Empty) : children (empty n) = [] := by
  simp [children_eq, body]

end Tree

end Lossless.Java
