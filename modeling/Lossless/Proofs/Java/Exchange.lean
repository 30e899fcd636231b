import Lossless.Proofs.Tree.Exchange
import Lossless.Proofs.Java.Places

/-!
# Exchanging nodes of Java trees

The tokens that a Java node prints around its children are not stored: commas follow from
the number of elements, semicolons from the kinds of the statements. So it is to be shown that
they stay where they are when other children of the same kinds come in, in all kinds of nodes
(`Lossless.Java.Tree.skeleton_pieces_eq`). Only in a block do the children have a say in it:
a method declaration needs a semicolon if it has no body
(`Lossless.Java.Tree.needsTerminator`), and both kinds of method declarations are one kind of
nodes. That is why a statement also has to agree in this with the one that it replaces
(`Lossless.Java.Tree.Suitable`). With that, editing is lossless
(`Lossless.Java.Tree.replace_lossless`).
-/

namespace Lossless.Java.Tree

open Place

/-! ### What a node prints around its children -/

section Segments

variable {α : Type}

/-- Fields that show places with the same paddings. -/
def SamePaddings (shown : α → Place Tree Kind) (as bs : List α) : Prop :=
  as.map (padding ∘ shown) = bs.map (padding ∘ shown)

theorem skeleton_map_child (tree : α → Tree) {shown : α → Place Tree Kind} {as bs : List α}
    (h : SamePaddings shown as bs) :
    skeleton (as.map fun a => .child (tree a)) = skeleton (bs.map fun b => .child (tree b)) := by
  have hlength : as.length = bs.length := by simpa using congrArg List.length h
  simp only [skeleton, List.map_map, Function.comp_def, List.map_const', hlength]

theorem skeleton_terminated {tree : α → Tree} {k : Kind} {ps qs : List (RightPadded α)}
    (h : SamePaddings (rightOfKind tree k) ps qs) :
    skeleton (ps.flatMap (terminated tree)) = skeleton (qs.flatMap (terminated tree)) := by
  refine skeleton_flatMap_congr (fun p q hpq => ?_) h
  obtain ⟨hafter, -⟩ := Padding.after.inj hpq
  simp [terminated, hafter]

variable {ps qs : List (RightPadded Tree)}

/-- Lists with the same paddings are printed with the same text around their elements. -/
theorem skeleton_separated (h : SamePaddings right ps qs) :
    skeleton (separated ps) = skeleton (separated qs) := by
  induction ps using separated.induct generalizing qs with
  | case1 => rw [List.map_eq_nil_iff.mp h.symm]
  | case2 p =>
    obtain ⟨q, rfl, hq⟩ := List.map_eq_singleton_iff.mp h.symm
    obtain ⟨hafter, -⟩ := Padding.after.inj hq
    simp [separated, hafter]
  | case3 p p' ps ih =>
    obtain ⟨q, qs, rfl, hq, hrest⟩ := List.map_eq_cons_iff.mp h.symm
    obtain ⟨q', qs, rfl, -⟩ := List.map_eq_cons_iff.mp hrest
    obtain ⟨hafter, -⟩ := Padding.after.inj hq
    simp [separated, hafter, ih hrest.symm]

/-- So are containers, if what stands in front of them and their markers are the same, too. -/
theorem skeleton_parenthesized {c d : Container Tree} (h : SamePaddings right c.padded d.padded)
    (hrest : c.withPadded [] = d.withPadded []) :
    skeleton (parenthesized c) = skeleton (parenthesized d) := by
  have hbefore : (c.withPadded []).before = (d.withPadded []).before :=
    congrArg Container.before hrest
  simp only [Container.withPadded] at hbefore
  simp [parenthesized, skeleton_separated h, hbefore]

/-- For statements their terminators have to be the same, too. -/
theorem skeleton_statements (h : SamePaddings right ps qs)
    (hterminators : (ps.map (·.element)).map needsTerminator =
      (qs.map (·.element)).map needsTerminator) :
    skeleton (ps.flatMap statement) = skeleton (qs.flatMap statement) := by
  rw [List.map_map, List.map_map] at hterminators
  have hboth : (ps.map fun p => ((right p : Place Tree Kind).padding, p.element.needsTerminator)) =
      qs.map fun q => ((right q : Place Tree Kind).padding, q.element.needsTerminator) := by
    rw [← List.zip_map', ← List.zip_map']
    exact congrArg₂ List.zip h hterminators
  refine skeleton_flatMap_congr (fun p q hpq => ?_) hboth
  obtain ⟨hpadding, hneeds⟩ := Prod.mk.inj hpq
  obtain ⟨hafter, -⟩ := Padding.after.inj hpadding
  simp only [statement, hafter, hneeds]
  split <;> rfl

theorem skeleton_introduced (token : String) {o o' : Option (LeftPadded Tree)}
    (h : SamePaddings left o.toList o'.toList) :
    skeleton (introduced token o) = skeleton (introduced token o') := by
  cases o <;> cases o' <;> simp_all [SamePaddings, introduced, left]

theorem skeleton_receiver {o o' : Option (RightPadded Tree)}
    (h : SamePaddings right o.toList o'.toList) :
    skeleton (receiver o) = skeleton (receiver o') := by
  cases o <;> cases o' <;> simp_all [SamePaddings, receiver, right]

end Segments

/-- **A node prints the same around its children** whatever these are, but for the terminators in a
block. -/
theorem skeleton_body_eq {t u : Tree} (hhollow : hollow u = hollow t)
    (hpaddings : paddings u = paddings t)
    (hterminators : t.kind = .block →
      (children u).map needsTerminator = (children t).map needsTerminator) :
    skeleton u.body = skeleton t.body := by
  have hkind : u.kind = t.kind := Anatomy.kind_eq_of_hollow hhollow
  simp only [paddings, Anatomy.places] at hpaddings
  cases t with
  | compilationUnit n =>
    cases u with
    | compilationUnit m =>
      simp only [hollow, compilationUnit.injEq, CompilationUnit.mk.injEq] at hhollow
      simp only [places, List.map_cons, List.map_map, List.cons.injEq] at hpaddings
      obtain ⟨-, -, -, -, -, heof⟩ := hhollow
      obtain ⟨hpackage, himports, hclasses, -⟩ := hpaddings
      simp only [body, skeleton_append, skeleton_text, skeleton_terminated hpackage,
        skeleton_terminated himports, skeleton_map_child classDeclaration hclasses, heof]
    | _ => cases hkind
  | package n =>
    cases u with
    | package m => rfl
    | _ => cases hkind
  | importDecl n =>
    cases u with
    | importDecl m =>
      simp only [hollow, importDecl.injEq, Import.mk.injEq] at hhollow
      simp only [body, List.cons_append, skeleton_append, skeleton_text, skeleton_child,
        hhollow.2.1]
    | _ => cases hkind
  | classDeclaration n =>
    cases u with
    | classDeclaration m =>
      simp only [hollow, classDeclaration.injEq, ClassDeclaration.mk.injEq] at hhollow
      simp only [places, List.map_cons, List.map_map, List.cons.injEq] at hpaddings
      obtain ⟨-, hmodifiers, hlead, hkeyword, -⟩ := hhollow
      obtain ⟨-, hsuper, -⟩ := hpaddings
      simp only [body, skeleton_append, skeleton_text, skeleton_child,
        skeleton_introduced _ hsuper, hmodifiers, hlead, hkeyword]
    | _ => cases hkind
  | methodDeclaration n =>
    cases u with
    | methodDeclaration m =>
      simp only [hollow, methodDeclaration.injEq, MethodDeclaration.mk.injEq] at hhollow
      simp only [places, List.map_cons, List.map_map, List.cons.injEq] at hpaddings
      obtain ⟨-, hmodifiers, -, -, hparens, -⟩ := hhollow
      obtain ⟨htype, -, hparameters, hbody, -⟩ := hpaddings
      simp only [body, skeleton_append, skeleton_child,
        skeleton_map_child (fun t => t) htype, skeleton_map_child block hbody,
        skeleton_parenthesized hparameters hparens, hmodifiers]
    | _ => cases hkind
  | block n =>
    cases u with
    | block m =>
      simp only [hollow, block.injEq, Block.mk.injEq] at hhollow
      simp only [places, List.map_cons, List.map_map, List.cons.injEq] at hpaddings
      have hneeds := hterminators rfl
      rw [children_block, children_block] at hneeds
      simp only [body, List.cons_append, skeleton_append, skeleton_text,
        skeleton_statements hpaddings.1 hneeds, hhollow.2.2]
    | _ => cases hkind
  | variableDeclarations n =>
    cases u with
    | variableDeclarations m =>
      simp only [hollow, variableDeclarations.injEq, VariableDeclarations.mk.injEq] at hhollow
      simp only [places, List.map_cons, List.map_map, List.cons.injEq] at hpaddings
      obtain ⟨htype, -, hinit, -⟩ := hpaddings
      simp only [body, skeleton_append, skeleton_child,
        skeleton_map_child (fun t => t) htype, skeleton_introduced _ hinit, hhollow.2.1]
    | _ => cases hkind
  | returnStmt n =>
    cases u with
    | returnStmt m =>
      simp only [places, List.map_cons, List.map_map, List.cons.injEq] at hpaddings
      simp only [body, skeleton_text, skeleton_map_child (fun t => t) hpaddings.1]
    | _ => cases hkind
  | methodInvocation n =>
    cases u with
    | methodInvocation m =>
      simp only [hollow, methodInvocation.injEq, MethodInvocation.mk.injEq] at hhollow
      simp only [places, List.map_cons, List.map_map, List.cons.injEq] at hpaddings
      obtain ⟨-, -, -, hparens, -⟩ := hhollow
      obtain ⟨hselect, -, hargs, -⟩ := hpaddings
      simp only [body, skeleton_append, skeleton_child, skeleton_receiver hselect,
        skeleton_parenthesized hargs hparens]
    | _ => cases hkind
  | newClass n =>
    cases u with
    | newClass m =>
      simp only [hollow, newClass.injEq, NewClass.mk.injEq] at hhollow
      simp only [places, List.map_cons, List.map_map, List.cons.injEq] at hpaddings
      obtain ⟨-, -, hparens, -⟩ := hhollow
      simp only [body, skeleton_append, skeleton_text, skeleton_child,
        skeleton_parenthesized hpaddings.2.1 hparens]
    | _ => cases hkind
  | fieldAccess n =>
    cases u with
    | fieldAccess m =>
      simp only [hollow, fieldAccess.injEq, FieldAccess.mk.injEq] at hhollow
      obtain ⟨-, -, hname, -⟩ := hhollow
      have hbefore : (m.name.withElement default).before = (n.name.withElement default).before :=
        congrArg LeftPadded.before hname
      simp only [LeftPadded.withElement] at hbefore
      simp only [body, skeleton_text, skeleton_child, hbefore]
    | _ => cases hkind
  | binary n =>
    cases u with
    | binary m =>
      simp only [hollow, binary.injEq, Binary.mk.injEq] at hhollow
      simp only [body, skeleton_text, skeleton_child, hhollow.2.2.1]
    | _ => cases hkind
  | identifier n =>
    cases u with
    | identifier m => exact congrArg (fun t => skeleton (body t)) hhollow
    | _ => cases hkind
  | literal n =>
    cases u with
    | literal m => exact congrArg (fun t => skeleton (body t)) hhollow
    | _ => cases hkind
  | empty n =>
    cases u with
    | empty m => rfl
    | _ => cases hkind

/-- **What a node prints around its children** depends on nothing but what is not in its places,
on the paddings of the places, and in a block on which statements need a semicolon. -/
theorem skeleton_pieces_eq {t u : Tree} (hhollow : hollow u = hollow t)
    (hpaddings : paddings u = paddings t)
    (hterminators : t.kind = .block →
      (children u).map needsTerminator = (children t).map needsTerminator) :
    skeleton (Node.pieces u) = skeleton (Node.pieces t) := by
  have hlead : u.lead = t.lead := congrArg Head.lead (Anatomy.head_eq_of_hollow hhollow)
  show skeleton (.text u.lead.text :: u.body) = skeleton (.text t.lead.text :: t.body)
  rw [skeleton_text, skeleton_text, hlead, skeleton_body_eq hhollow hpaddings hterminators]

/-! ### Nodes that fit -/

/-- A node fits in the place of another if it is of the same kind, and, as a statement of a
block, if it needs a semicolon exactly when the other does. -/
structure Fits (parent old new : Tree) : Prop where
  kind_eq : new.kind = old.kind
  needsTerminator_eq : parent.kind = .block → new.needsTerminator = old.needsTerminator

/-- Whether a statement needs a terminator is seen from its kind and from what it has. -/
theorem needsTerminator_eq {t u : Tree} (hkind : u.kind = t.kind)
    (hpaddings : paddings u = paddings t) : u.needsTerminator = t.needsTerminator := by
  cases t with
  | methodDeclaration n =>
    cases u with
    | methodDeclaration m =>
      -- whether there is a body is seen from whether there is a place for it
      simp only [paddings, Anatomy.places, places, List.map_cons, List.map_map,
        List.cons.injEq] at hpaddings
      obtain ⟨-, -, -, hbody, -⟩ := hpaddings
      show m.body.isNone = n.body.isNone
      cases hm : m.body <;> cases hn : n.body <;> simp_all
    | _ => cases hkind
  | _ => cases u <;> first | rfl | cases hkind

/-- **Java nodes accommodate nodes that fit.** -/
theorem accommodates : Accommodates Fits := by
  have hkinds : ∀ {t : Tree} {us : List Tree}, List.Forall₂ (Fits t) (children t) us →
      List.Forall₂ (fun c u => Anatomy.kind u = Anatomy.kind c) (children t) us := fun {t us} h =>
    h.imp fun _ _ hfits => hfits.kind_eq
  refine ⟨fun h => children_rebuild (hkinds h), fun {t us} h => ?_, fun {_ t us} h => ?_⟩
  · refine skeleton_pieces_eq (hollow_rebuild h.length_eq.symm) (paddings_rebuild (hkinds h)) ?_
    intro hblock
    rw [children_rebuild (hkinds h)]
    rw [← List.forall₂_eq_eq_eq, List.forall₂_map_left_iff, List.forall₂_map_right_iff]
    exact h.flip.imp fun _ _ hfits => hfits.needsTerminator_eq hblock
  · have hkind := kind_rebuild h.length_eq.symm
    exact ⟨hkind, fun _ => needsTerminator_eq hkind (paddings_rebuild (hkinds h))⟩

/-! ### Replacing nodes -/

/-- Nodes are replaced by nodes of the same kinds, and statements of a block by statements that
need a semicolon exactly when they do. -/
structure Suitable (E : Replacements Tree) (t : Tree) : Prop where
  kind_eq : ∀ p old new, at? t p = some old → E p = some new → new.kind = old.kind
  needsTerminator_eq : ∀ p i n old new, at? t p = some (.block n) → at? t (p ++ [i]) = some old →
    E (p ++ [i]) = some new → new.needsTerminator = old.needsTerminator

/-- Suitable replacements fit in everywhere below the root. -/
theorem Suitable.fitIn {E : Replacements Tree} {t : Tree} (h : Suitable E t) : E.FitIn Fits t := by
  intro p parent i old new hparent hold hnew
  have hat : at? t (p ++ [i]) = some old := by
    rw [at?_append, hparent, Option.bind_some, at?_cons hold]
    rfl
  refine ⟨h.kind_eq _ old new hat hnew, fun hblock => ?_⟩
  cases parent with
  | block n => exact h.needsTerminator_eq p i n old new hparent hat hnew
  | _ => cases hblock

/-- **Editing Java trees is lossless.** When nodes at disjoint positions are replaced by nodes of
their kinds, these stand where the old ones stood, and in the text those parts that were the
text of the old nodes are exchanged for the text of the new ones. Every other character
stays. -/
theorem replace_lossless (t : Tree) (E : Replacements Tree) (hdisjoint : E.Disjoint t)
    (hsuitable : Suitable E t) :
    Exchanged 0 (exchanges E t) (text t) (text (replace E t)) ∧
      ∀ p ∈ positions t, ∀ new, E p = some new → at? (replace E t) p = some new :=
  ⟨accommodates.exchanged_replace hdisjoint hsuitable.fitIn, fun _ hp _ hnew =>
    accommodates.at?_replace hdisjoint hsuitable.fitIn hp hnew⟩

/-- The block `{return 1;x;}`, with the blank in front of the literal. -/
def returnThenName : Tree :=
  .block
    { statements :=
        [.build (.returnStmt { expression := some (.literal { lead := .single, source := "1" }) }),
          .build (.identifier { simpleName := "x" })] }

/-- Another literal to return, and another name. -/
def otherLiteralAndName : Replacements Tree := fun p =>
  if p = [0, 0] then some (.literal { source := "22" })
  else if p = [1] then some (.identifier { simpleName := "yy" })
  else none

theorem otherLiteralAndName_eq_some {p : Position} {new : Tree}
    (h : otherLiteralAndName p = some new) :
    p = [0, 0] ∧ new = .literal { source := "22" } ∨
      p = [1] ∧ new = .identifier { simpleName := "yy" } := by
  rw [otherLiteralAndName] at h
  split at h
  · exact .inl ⟨‹_›, (Option.some.inj h).symm⟩
  · split at h
    · exact .inr ⟨‹_›, (Option.some.inj h).symm⟩
    · cases h

/-- A literal within one statement and the whole next statement are replaced at once. -/
theorem replace_lossless_returnThenName :
    otherLiteralAndName.Disjoint returnThenName ∧ Suitable otherLiteralAndName returnThenName ∧
      Exchanged 0 (exchanges otherLiteralAndName returnThenName) (text returnThenName)
        (text (replace otherLiteralAndName returnThenName)) := by
  have hdisjoint : otherLiteralAndName.Disjoint returnThenName := by
    intro p _ q _ hp hq hpre
    obtain ⟨u, hu⟩ := Option.isSome_iff_exists.mp hp
    obtain ⟨v, hv⟩ := Option.isSome_iff_exists.mp hq
    rcases otherLiteralAndName_eq_some hu with ⟨rfl, -⟩ | ⟨rfl, -⟩ <;>
      rcases otherLiteralAndName_eq_some hv with ⟨rfl, -⟩ | ⟨rfl, -⟩ <;>
      first | rfl | exact absurd hpre (by decide)
  have hsuitable : Suitable otherLiteralAndName returnThenName := by
    constructor
    · intro p old new hold hnew
      rcases otherLiteralAndName_eq_some hnew with ⟨rfl, rfl⟩ | ⟨rfl, rfl⟩ <;>
        · obtain rfl := Option.some.inj hold
          rfl
    · intro p i n old new _ hold hnew
      rcases otherLiteralAndName_eq_some hnew with ⟨hp, rfl⟩ | ⟨hp, rfl⟩ <;>
        · rw [hp] at hold
          obtain rfl := Option.some.inj hold
          rfl
  exact ⟨hdisjoint, hsuitable, (replace_lossless _ _ hdisjoint hsuitable).1⟩

end Lossless.Java.Tree
