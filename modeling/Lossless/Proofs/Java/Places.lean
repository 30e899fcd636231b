import Lossless.Proofs.Tree.Settled
import Lossless.Java.Tree

/-!
# The places of Java nodes
-/

namespace Lossless.Java.Tree

open Place

/-- A node for the places that cannot be empty, when there is nothing in them. -/
def nothing : Tree := .empty {}

/-- A node with nothing in its places. -/
def hollow : Tree → Tree
  | .compilationUnit n => .compilationUnit { n with package := none, imports := [], classes := [] }
  | .package n => .package { n with expression := nothing }
  | .importDecl n =>
    .importDecl { n with qualified := { target := nothing, name := .build default } }
  | .classDeclaration n =>
    .classDeclaration { n with name := default, superclass := none, body := {} }
  | .methodDeclaration n =>
    .methodDeclaration
      { n with
        returnType := none
        name := default
        parameters := n.parameters.withPadded []
        body := none }
  | .block n => .block { n with statements := [] }
  | .variableDeclarations n =>
    .variableDeclarations { n with typeExpression := none, name := default, initializer := none }
  | .returnStmt n => .returnStmt { n with expression := none }
  | .methodInvocation n =>
    .methodInvocation
      { n with select := none, name := default, arguments := n.arguments.withPadded [] }
  | .newClass n =>
    .newClass { n with constructed := nothing, arguments := n.arguments.withPadded [] }
  | .identifier n => .identifier n
  | .fieldAccess n =>
    .fieldAccess { n with target := nothing, name := n.name.withElement default }
  | .literal n => .literal n
  | .binary n => .binary { n with left := nothing, right := nothing }
  | .empty n => .empty n

/-- The places of a node. -/
def places : Tree → List (List (Place Tree Kind))
  | .compilationUnit n =>
    [n.package.toList.map (rightOfKind package .package),
      n.imports.map (rightOfKind importDecl .importDecl),
      n.classes.map (ofKind classDeclaration .classDeclaration)]
  | .package n => [[required n.expression]]
  | .importDecl n => [[fixed fieldAccess .fieldAccess n.qualified]]
  | .classDeclaration n =>
    [[fixed identifier .identifier n.name], n.superclass.toList.map left,
      [fixed block .block n.body]]
  | .methodDeclaration n =>
    [n.returnType.toList.map plain, [fixed identifier .identifier n.name],
      n.parameters.padded.map right, n.body.toList.map (ofKind block .block)]
  | .block n => [n.statements.map right]
  | .variableDeclarations n =>
    [n.typeExpression.toList.map plain, [fixed identifier .identifier n.name],
      n.initializer.toList.map left]
  | .returnStmt n => [n.expression.toList.map plain]
  | .methodInvocation n =>
    [n.select.toList.map right, [fixed identifier .identifier n.name],
      n.arguments.padded.map right]
  | .newClass n => [[required n.constructed], n.arguments.padded.map right]
  | .fieldAccess n => [[required n.target], [leftFixed identifier .identifier n.name]]
  | .binary n => [[required n.left], [required n.right]]
  | .identifier _ | .literal _ | .empty _ => []

/-- The places are for the children, in their order. -/
theorem map_child_places (t : Tree) : (places t).flatten.map Place.child = children t := by
  cases t <;> simp [places, Function.comp_def, Container.elements, rightOfKind, ofKind, required,
    fixed, plain, right, left, leftFixed]

/-- In a place for one kind of nodes there is a node of this kind. -/
theorem kind_of_only (t : Tree) : ∀ p ∈ (places t).flatten, ∀ k ∈ p.only, kind p.child = k := by
  cases t <;> simp [places, or_imp, forall_and, rightOfKind, ofKind, required, fixed, plain, right,
    left, leftFixed, kind]

/-! ### A node consists of its places and of what is not in them -/

/-- A container is determined by its elements with their paddings and by what is not in its places.
-/
theorem container_ext {c d : Container Tree} (hwith : c.withPadded [] = d.withPadded [])
    (hpadded : c.padded.map (right : _ → Place Tree Kind) = d.padded.map right) : c = d := by
  obtain ⟨before, padded, markers⟩ := c
  obtain ⟨before', padded', markers'⟩ := d
  have := List.map_injective_iff.mpr right_injective hpadded
  simp_all [Container.withPadded]

theorem package_injective : package.Injective := fun _ _ h => by cases h; rfl

theorem importDecl_injective : importDecl.Injective := fun _ _ h => by cases h; rfl

theorem classDeclaration_injective : classDeclaration.Injective := fun _ _ h => by cases h; rfl

theorem block_injective : block.Injective := fun _ _ h => by cases h; rfl

/-- **A node consists of its places and of what is not in them.** -/
theorem ext_places {t u : Tree} (hhollow : hollow t = hollow u) (hplaces : places t = places u) :
    t = u := by
  have hidentifier {i j : Identifier}
      (h : (fixed identifier .identifier i : Place Tree Kind) = fixed identifier .identifier j) :
      i = j := by
    cases h; rfl
  have hblocks {o p : Option (Block Tree)} :
      o.toList.map (ofKind block Kind.block) = p.toList.map (ofKind block .block) → o = p :=
    (toList_map_inj (ofKind_injective block_injective _)).mp
  have hplains {o p : Option Tree} :
      o.toList.map (plain : _ → Place Tree Kind) = p.toList.map plain → o = p :=
    (toList_map_inj plain_injective).mp
  have hlefts {o p : Option (LeftPadded Tree)} :
      o.toList.map (left : _ → Place Tree Kind) = p.toList.map left → o = p :=
    (toList_map_inj left_injective).mp
  have hrights {o p : Option (RightPadded Tree)} :
      o.toList.map (right : _ → Place Tree Kind) = p.toList.map right → o = p :=
    (toList_map_inj right_injective).mp
  cases t <;> cases u <;> try (simp only [hollow, reduceCtorEq] at hhollow; done)
  case compilationUnit m n =>
    simp only [places, List.cons.injEq] at hplaces
    have hpackage := (toList_map_inj (rightOfKind_injective package_injective _)).mp hplaces.1
    have himports := List.map_injective_iff.mpr
      (rightOfKind_injective importDecl_injective _) hplaces.2.1
    have hclasses := List.map_injective_iff.mpr
      (ofKind_injective classDeclaration_injective _) hplaces.2.2.1
    cases m; cases n
    simp_all [hollow]
  case package m n =>
    cases m; cases n
    simp_all [hollow, places, required]
  case importDecl m n =>
    cases m; cases n
    simp_all [hollow, places, fixed]
  case classDeclaration m n =>
    simp only [places, List.cons.injEq] at hplaces
    have hname := hidentifier hplaces.1.1
    have hsuperclass := hlefts hplaces.2.1
    have hbody := block_injective (congrArg Place.child hplaces.2.2.1.1)
    cases m; cases n
    simp_all [hollow]
  case methodDeclaration m n =>
    simp only [places, List.cons.injEq] at hplaces
    have hreturnType := hplains hplaces.1
    have hname := hidentifier hplaces.2.1.1
    have hbody := hblocks hplaces.2.2.2.1
    simp only [hollow, methodDeclaration.injEq, MethodDeclaration.mk.injEq] at hhollow
    have hparameters := container_ext hhollow.2.2.2.2.1 hplaces.2.2.1
    cases m; cases n
    simp_all
  case block m n =>
    simp only [places, List.cons.injEq] at hplaces
    have hstatements := List.map_injective_iff.mpr right_injective hplaces.1
    cases m; cases n
    simp_all [hollow]
  case variableDeclarations m n =>
    simp only [places, List.cons.injEq] at hplaces
    have htype := hplains hplaces.1
    have hname := hidentifier hplaces.2.1.1
    have hinitializer := hlefts hplaces.2.2.1
    cases m; cases n
    simp_all [hollow]
  case returnStmt m n =>
    simp only [places, List.cons.injEq] at hplaces
    have hexpression := hplains hplaces.1
    cases m; cases n
    simp_all [hollow]
  case methodInvocation m n =>
    simp only [places, List.cons.injEq] at hplaces
    have hselect := hrights hplaces.1
    have hname := hidentifier hplaces.2.1.1
    simp only [hollow, methodInvocation.injEq, MethodInvocation.mk.injEq] at hhollow
    have harguments := container_ext hhollow.2.2.2.1 hplaces.2.2.1
    cases m; cases n
    simp_all
  case newClass m n =>
    simp only [places, List.cons.injEq] at hplaces
    have hconstructed := congrArg Place.child hplaces.1.1
    simp only [hollow, newClass.injEq, NewClass.mk.injEq] at hhollow
    have harguments := container_ext hhollow.2.2.1 hplaces.2.1
    cases m; cases n
    simp_all [required]
  case fieldAccess m n =>
    obtain ⟨hd, target, name, ty⟩ := m
    obtain ⟨hd', target', name', ty'⟩ := n
    cases name; cases name'
    simp_all [hollow, places, required, leftFixed, LeftPadded.withElement]
  case binary m n =>
    cases m; cases n
    simp_all [hollow, places, required]
  all_goals exact hhollow

instance : Anatomy Tree Kind where
  kind := kind
  head := head
  hollow := hollow
  places := places
  kind_hollow t := by cases t <;> rfl
  head_hollow t := by cases t <;> rfl
  map_child_places := map_child_places
  kind_of_only := kind_of_only
  ext := ext_places

/-! ### Kinds -/

theorem isKind_package : IsKind package package? .package where
  cast_tree _ := rfl
  eq_tree {t n} h := by cases t <;> simp_all [package?]
  isSome_cast t := by cases t <;> simp [package?, Anatomy.kind, kind]

theorem isKind_importDecl : IsKind importDecl import? .importDecl where
  cast_tree _ := rfl
  eq_tree {t n} h := by cases t <;> simp_all [import?]
  isSome_cast t := by cases t <;> simp [import?, Anatomy.kind, kind]

theorem isKind_classDeclaration : IsKind classDeclaration class? .classDeclaration where
  cast_tree _ := rfl
  eq_tree {t n} h := by cases t <;> simp_all [class?]
  isSome_cast t := by cases t <;> simp [class?, Anatomy.kind, kind]

theorem isKind_block : IsKind block block? .block where
  cast_tree _ := rfl
  eq_tree {t n} h := by cases t <;> simp_all [block?]
  isSome_cast t := by cases t <;> simp [block?, Anatomy.kind, kind]

theorem isKind_identifier : IsKind identifier identifier? .identifier where
  cast_tree _ := rfl
  eq_tree {t n} h := by cases t <;> simp_all [identifier?]
  isSome_cast t := by cases t <;> simp [identifier?, Anatomy.kind, kind]

theorem isKind_fieldAccess : IsKind fieldAccess fieldAccess? .fieldAccess where
  cast_tree _ := rfl
  eq_tree {t n} h := by cases t <;> simp_all [fieldAccess?]
  isSome_cast t := by cases t <;> simp [fieldAccess?, Anatomy.kind, kind]

/-! ### Reading -/

open Answers in
/-- **Every kind of nodes fills its places.** -/
theorem fills_answered (t : Tree) :
    FillsAll t.answered (places t) fun u pss => hollow u = hollow t ∧ places u = pss := by
  cases t with
  | compilationUnit n =>
    refine (fills_optional (settle_rightOfKind isKind_package) n.package).bind
        fun package _ hpackage =>
      (fills_list (settle_rightOfKind isKind_importDecl) n.imports).bind fun imports _ himports =>
      (fills_list (settle_ofKind isKind_classDeclaration) n.classes).bind fun classes _ hclasses =>
      .pure ⟨rfl, ?_⟩
    rw [← hpackage, ← himports, ← hclasses, places]
  | package n =>
    refine (fills_required n.expression).bind fun expression _ hexpression => .pure ⟨rfl, ?_⟩
    rw [← hexpression, places]
  | importDecl n =>
    refine (fills_fixed isKind_fieldAccess n.qualified).bind fun qualified _ hqualified =>
      .pure ⟨rfl, ?_⟩
    rw [← hqualified, places]
  | classDeclaration n =>
    refine (fills_fixed isKind_identifier n.name).bind fun name _ hname =>
      (fills_optional settle_left n.superclass).bind fun superclass _ hsuper =>
      (fills_fixed isKind_block n.body).bind fun body _ hbody => .pure ⟨rfl, ?_⟩
    rw [← hname, ← hsuper, ← hbody, places]
  | methodDeclaration n =>
    refine (fills_optional settle_plain n.returnType).bind fun returnType _ htype =>
      (fills_fixed isKind_identifier n.name).bind fun name _ hname =>
      (fills_container n.parameters).bind fun parameters _ hparameters =>
      (fills_optional (settle_ofKind isKind_block) n.body).bind fun body _ hbody =>
      .pure ⟨?_, ?_⟩
    · rw [hollow, hollow, hparameters.2]
    · rw [← htype, ← hname, ← hparameters.1, ← hbody, places]
  | block n =>
    refine (fills_list settle_right n.statements).bind fun statements _ hstatements =>
      .pure ⟨rfl, ?_⟩
    rw [← hstatements, places]
  | variableDeclarations n =>
    refine (fills_optional settle_plain n.typeExpression).bind fun typeExpression _ htype =>
      (fills_fixed isKind_identifier n.name).bind fun name _ hname =>
      (fills_optional settle_left n.initializer).bind fun initializer _ hinit => .pure ⟨rfl, ?_⟩
    rw [← htype, ← hname, ← hinit, places]
  | returnStmt n =>
    refine (fills_optional settle_plain n.expression).bind fun expression _ hexpression =>
      .pure ⟨rfl, ?_⟩
    rw [← hexpression, places]
  | methodInvocation n =>
    refine (fills_optional settle_right n.select).bind fun select _ hselect =>
      (fills_fixed isKind_identifier n.name).bind fun name _ hname =>
      (fills_container n.arguments).bind fun arguments _ hargs => .pure ⟨?_, ?_⟩
    · rw [hollow, hollow, hargs.2]
    · rw [← hselect, ← hname, ← hargs.1, places]
  | newClass n =>
    refine (fills_required n.constructed).bind fun constructed _ hclass =>
      (fills_container n.arguments).bind fun arguments _ hargs => .pure ⟨?_, ?_⟩
    · rw [hollow, hollow, hargs.2]
    · rw [← hclass, ← hargs.1, places]
  | fieldAccess n =>
    refine (fills_required n.target).bind fun target _ htarget =>
      (fills_leftFixed isKind_identifier n.name).bind fun name _ hname => .pure ⟨rfl, ?_⟩
    rw [← htarget, ← hname, places]
  | binary n =>
    refine (fills_required n.left).bind fun left _ hleft =>
      (fills_required n.right).bind fun right _ hright => .pure ⟨rfl, ?_⟩
    rw [← hleft, ← hright, places]
  | identifier n => exact .pure ⟨rfl, rfl⟩
  | literal n => exact .pure ⟨rfl, rfl⟩
  | empty n => exact .pure ⟨rfl, rfl⟩

/-- **What becomes of a Java node**: an update settles its places, leaves all else, and gives
the very same node exactly if no place changes. -/
instance : LawfulNode Tree Kind where
  settled_update t _ h := (fills_answered t).settled h

end Lossless.Java.Tree
