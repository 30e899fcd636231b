import Lossless.Java.Tree
import Lossless.SourcePath

/-!
# Equality of Java trees

Two notions. Trees are *equal* when they agree in everything, identities included;
that is `=`, decided frame by frame. Trees are *alike* (`Lossless.Java.Tree.alike`)
when they agree but for identities: these say which node is meant, not what it is.
-/

namespace Lossless.Java

/-- A node without its children. What fills a place for one kind of nodes is a child,
and its place is filled by a blank. -/
inductive Frame where
  | compilationUnit (n : CompilationUnit Unit)
  | package (n : Package Unit)
  | importDecl (n : Import Unit)
  | classDeclaration (n : ClassDeclaration Unit)
  | methodDeclaration (n : MethodDeclaration Unit)
  | block (n : Block Unit)
  | variableDeclarations (n : VariableDeclarations Unit)
  | returnStmt (n : Return Unit)
  | methodInvocation (n : MethodInvocation Unit)
  | newClass (n : NewClass Unit)
  | identifier (n : Identifier)
  | fieldAccess (n : FieldAccess Unit)
  | literal (n : Literal)
  | binary (n : Binary Unit)
  | empty (n : Empty)
deriving DecidableEq

namespace Frame

/-- The name of nobody. -/
def blankName : Identifier := { simpleName := "" }

/-- The block without statements. -/
def blankBlock : Block Unit := {}

/-- The access to nothing. -/
def blankAccess : FieldAccess Unit := { target := (), name := .build blankName }

/-- The import of nothing. -/
def blankImport : Import Unit := { qualified := blankAccess }

/-- The class without members. -/
def blankClass : ClassDeclaration Unit := { name := blankName, body := blankBlock }

end Frame

namespace Tree

open Java.Frame in
/-- All that a node is beside its children. -/
def frame : Tree → Frame
  | .compilationUnit n =>
    .compilationUnit
      { n with
        package := n.package.map (·.map fun _ => { expression := () })
        imports := n.imports.map (·.map fun _ => blankImport)
        classes := n.classes.map fun _ => blankClass }
  | .package n => .package { n with expression := () }
  | .importDecl n => .importDecl { n with qualified := blankAccess }
  | .classDeclaration n =>
    .classDeclaration
      { n with
        name := blankName
        superclass := n.superclass.map (·.map fun _ => ())
        body := blankBlock }
  | .methodDeclaration n =>
    .methodDeclaration
      { n with
        returnType := n.returnType.map fun _ => ()
        name := blankName
        parameters := n.parameters.map fun _ => ()
        body := n.body.map fun _ => blankBlock }
  | .block n => .block { n with statements := n.statements.map (·.map fun _ => ()) }
  | .variableDeclarations n =>
    .variableDeclarations
      { n with
        typeExpression := n.typeExpression.map fun _ => ()
        name := blankName
        initializer := n.initializer.map (·.map fun _ => ()) }
  | .returnStmt n => .returnStmt { n with expression := n.expression.map fun _ => () }
  | .methodInvocation n =>
    .methodInvocation
      { n with
        select := n.select.map (·.map fun _ => ())
        name := blankName
        arguments := n.arguments.map fun _ => () }
  | .newClass n =>
    .newClass { n with constructed := (), arguments := n.arguments.map fun _ => () }
  | .identifier n => .identifier n
  | .fieldAccess n =>
    .fieldAccess { n with target := (), name := n.name.map fun _ => blankName }
  | .literal n => .literal n
  | .binary n => .binary { n with left := (), right := () }
  | .empty n => .empty n

/-- Trees with the same frame and the same children are equal. -/
theorem ext_frame {a b : Tree} (hf : frame a = frame b) (hc : children a = children b) : a = b := by
  cases a <;> cases b <;> try (simp [frame] at hf; done)
  case compilationUnit m n =>
    obtain ⟨hd, path, package, imports, classes, eof⟩ := m
    obtain ⟨hd', path', package', imports', classes', eof'⟩ := n
    simp [frame] at hf hc
    obtain ⟨rfl, rfl, hp, hi, hk, rfl⟩ := hf
    have hil := congrArg List.length hi
    simp only [List.length_map] at hil
    have hpl : (package.toList.map fun p => Tree.package p.element).length =
        (package'.toList.map fun p => Tree.package p.element).length := by
      cases package <;> cases package' <;> simp_all
    obtain ⟨h1, h2⟩ := List.append_inj hc hpl
    obtain ⟨h2, h3⟩ := List.append_inj h2 (by simpa using hil)
    have hq : package = package' := by
      refine RightPadded.option_ext_map _ hp ?_
      cases package <;> cases package' <;> simp_all
    have hj : imports = imports' := by
      refine RightPadded.list_ext_map _ hi ?_
      have := congrArg (List.filterMap import?) h2
      simpa [List.filterMap_map, Function.comp_def, import?] using this
    have hl : classes = classes' := by
      have := congrArg (List.filterMap class?) h3
      simpa [List.filterMap_map, Function.comp_def, class?] using this
    rw [hq, hj, hl]
  case package m n => cases m; cases n; simp_all [frame]
  case importDecl m n => cases m; cases n; simp_all [frame]
  case classDeclaration m n =>
    obtain ⟨hd, ms, kl, k, name, superclass, block, ty⟩ := m
    obtain ⟨hd', ms', kl', k', name', superclass', block', ty'⟩ := n
    simp [frame] at hf hc
    obtain ⟨rfl, rfl, rfl, rfl, hs, rfl⟩ := hf
    obtain ⟨rfl, hc⟩ := hc
    obtain ⟨hc, rfl⟩ := hc
    have : superclass = superclass' := by
      refine LeftPadded.option_ext_map _ hs ?_
      cases superclass <;> cases superclass' <;> simp_all
    simp_all
  case methodDeclaration m n =>
    obtain ⟨hd, ms, returnType, name, parameters, block, ty⟩ := m
    obtain ⟨hd', ms', returnType', name', parameters', block', ty'⟩ := n
    simp [frame] at hf hc
    obtain ⟨rfl, rfl, hr, hp, hb, rfl⟩ := hf
    have hrl : returnType.toList.length = returnType'.toList.length := by
      cases returnType <;> cases returnType' <;> simp_all
    obtain ⟨h1, h2⟩ := List.append_inj hc hrl
    simp at h2
    obtain ⟨rfl, h2⟩ := h2
    have hpl : parameters.elements.length = parameters'.elements.length := by
      have := congrArg (fun c => c.padded.length) hp
      simpa [Container.map, Container.elements] using this
    obtain ⟨h2, h3⟩ := List.append_inj h2 hpl
    have hq : parameters = parameters' := Container.ext_map _ hp h2
    have : returnType = returnType' := by cases returnType <;> cases returnType' <;> simp_all
    have : block = block' := by cases block <;> cases block' <;> simp_all
    simp_all
  case block m n =>
    cases m; cases n
    simp [frame] at hf hc
    simp_all [RightPadded.list_ext_map () hf.2.1 hc]
  case variableDeclarations m n =>
    obtain ⟨hd, ms, typeExpression, name, initializer⟩ := m
    obtain ⟨hd', ms', typeExpression', name', initializer'⟩ := n
    simp [frame] at hf hc
    obtain ⟨rfl, rfl, ht, hi⟩ := hf
    have htl : typeExpression.toList.length = typeExpression'.toList.length := by
      cases typeExpression <;> cases typeExpression' <;> simp_all
    obtain ⟨h1, h2⟩ := List.append_inj hc htl
    simp at h2
    obtain ⟨rfl, h2⟩ := h2
    have : typeExpression = typeExpression' := by
      cases typeExpression <;> cases typeExpression' <;> simp_all
    have : initializer = initializer' := by
      refine LeftPadded.option_ext_map _ hi ?_
      cases initializer <;> cases initializer' <;> simp_all
    simp_all
  case returnStmt m n =>
    obtain ⟨hd, e⟩ := m
    obtain ⟨hd', e'⟩ := n
    simp [frame] at hf hc
    cases e <;> cases e' <;> simp_all
  case methodInvocation m n =>
    obtain ⟨hd, select, name, arguments, ty⟩ := m
    obtain ⟨hd', select', name', arguments', ty'⟩ := n
    simp [frame] at hf hc
    obtain ⟨rfl, hs, ha, rfl⟩ := hf
    have hsl : (select.toList.map (·.element)).length =
        (select'.toList.map (·.element)).length := by
      cases select <;> cases select' <;> simp_all
    obtain ⟨h1, h2⟩ := List.append_inj hc hsl
    simp at h2
    obtain ⟨rfl, h2⟩ := h2
    have : select = select' := by
      refine RightPadded.option_ext_map _ hs ?_
      cases select <;> cases select' <;> simp_all
    simp_all [Container.ext_map () ha h2]
  case newClass m n =>
    obtain ⟨hd, k, arguments, ty⟩ := m
    obtain ⟨hd', k', arguments', ty'⟩ := n
    simp [frame] at hf hc
    obtain ⟨rfl, ha, rfl⟩ := hf
    obtain ⟨rfl, hc⟩ := hc
    rw [Container.ext_map () ha hc]
  case identifier m n => simpa [frame] using hf
  case fieldAccess m n =>
    obtain ⟨hd, target, name, ty⟩ := m
    obtain ⟨hd', target', name', ty'⟩ := n
    simp [frame] at hf hc
    obtain ⟨rfl, hn, rfl⟩ := hf
    rw [hc.1, LeftPadded.ext_map _ hn hc.2]
  case literal m n => simpa [frame] using hf
  case binary m n => cases m; cases n; simp_all [frame]
  case empty m n => simpa [frame] using hf

instance : DecidableEq Tree := decEqOfFrame frame ext_frame

/-! ### Equality but for identities -/

/-- A node without its identity; its children are left as they are. -/
def bare : Tree → Tree
  | .compilationUnit n =>
    .compilationUnit
      { n with toHead := n.anonymous, sourcePath := SourcePath.normalize n.sourcePath }
  | .classDeclaration n =>
    .classDeclaration { n with toHead := n.anonymous, modifiers := n.modifiers.map bareModifier }
  | .methodDeclaration n =>
    .methodDeclaration { n with toHead := n.anonymous, modifiers := n.modifiers.map bareModifier }
  | .variableDeclarations n =>
    .variableDeclarations
      { n with toHead := n.anonymous, modifiers := n.modifiers.map bareModifier }
  | t => t.withHead t.head.anonymous
where
  /-- A keyword without its identity. -/
  bareModifier (m : Modifier) : Modifier := { m with toHead := m.anonymous }

/-- A tree without any identities. -/
def anonymous (t : Tree) : Tree :=
  rebuild t.bare ((children t).attach.map fun ⟨c, _⟩ => anonymous c)
termination_by t

/-- Do two trees agree but for identities? -/
def alike (t u : Tree) : Bool := t.anonymous = u.anonymous

end Tree

end Lossless.Java
