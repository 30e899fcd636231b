import Lossless.Java.Equality
import Lossless.Proofs.Java.Call

/-!
# Nodes without their children

All that a Java node is beside its children is its frame (`Lossless.Java.Tree.frame`). The frame
can be told from what is not in the places of the node and from the paddings of the places
(`Lossless.Java.Tree.frame_eq_of_hollow`), so it does not change when other children of the same
kinds come in (`Lossless.Java.Tree.frame_mapChildren`).

A tree is known from the frames of its nodes: two trees with nodes at the same positions, and with
the same frame at each of them, are equal (`Lossless.Java.Tree.eq_of_frames`).
-/

namespace Lossless.Java.Tree

open Place

/-! ### Places with nothing in them -/

section Blanks

variable {α β : Type} (blank : β)

/-- The padding of a place behind its child. -/
def paddingAfter (p : RightPadded α) : Padding := .after p.after p.markers

/-- The padding of a place in front of its child. -/
def paddingBefore (p : LeftPadded α) : Padding := .before p.before p.markers

/-- Nothing, with the padding of a place behind it. -/
def blankAfter : Padding → RightPadded β
  | .after text markers => { element := blank, after := text, markers }
  | _ => { element := blank }

theorem blanks_eq {as bs : List α} (h : as.map (fun _ => Padding.none) = bs.map fun _ => .none) :
    (as.map fun _ => blank) = bs.map fun _ => blank := by
  have hlength : as.length = bs.length := by simpa using congrArg List.length h
  rw [List.map_const', List.map_const', hlength]

theorem rightBlanks_eq {ps qs : List (RightPadded α)}
    (h : ps.map paddingAfter = qs.map paddingAfter) :
    (ps.map fun p => p.map fun _ => blank) = qs.map fun q => q.map fun _ => blank := by
  have hblanks := congrArg (List.map (blankAfter blank)) h
  rw [List.map_map, List.map_map] at hblanks
  exact hblanks

theorem blank_eq {o o' : Option α}
    (h : o.toList.map (fun _ => Padding.none) = o'.toList.map fun _ => .none) :
    (o.map fun _ => blank) = o'.map fun _ => blank := by
  cases o <;> cases o' <;> simp_all

theorem rightBlank_eq {o o' : Option (RightPadded α)}
    (h : o.toList.map paddingAfter = o'.toList.map paddingAfter) :
    (o.map fun p => p.map fun _ => blank) = o'.map fun p => p.map fun _ => blank := by
  cases o <;> cases o' <;> simp_all [paddingAfter, RightPadded.map]

theorem leftBlank_eq {o o' : Option (LeftPadded α)}
    (h : o.toList.map paddingBefore = o'.toList.map paddingBefore) :
    (o.map fun p => p.map fun _ => blank) = o'.map fun p => p.map fun _ => blank := by
  cases o <;> cases o' <;> simp_all [paddingBefore, LeftPadded.map]

theorem containerBlank_eq {c d : Container Tree}
    (h : c.padded.map paddingAfter = d.padded.map paddingAfter)
    (hrest : c.withPadded [] = d.withPadded []) :
    (c.map fun _ => blank) = d.map fun _ => blank := by
  obtain ⟨hbefore, -, hmarkers⟩ := Container.mk.inj hrest
  rw [Container.map, Container.map, hbefore, hmarkers, rightBlanks_eq blank h]

end Blanks

/-! ### Frames -/

/-- **The frame of a node** depends on nothing but what is not in its places, and on the paddings
of the places. -/
theorem frame_eq_of_hollow {t u : Tree} (hhollow : hollow u = hollow t)
    (hpaddings : paddings u = paddings t) : u.frame = t.frame := by
  have hkind : u.kind = t.kind := Anatomy.kind_eq_of_hollow hhollow
  simp only [paddings, Anatomy.places] at hpaddings
  cases t with
  | compilationUnit n =>
    cases u with
    | compilationUnit m =>
      simp only [hollow, compilationUnit.injEq, CompilationUnit.mk.injEq] at hhollow
      simp only [places, List.map_cons, List.map_map, List.cons.injEq] at hpaddings
      obtain ⟨hhead, hpath, -, -, -, heof⟩ := hhollow
      obtain ⟨hpackage, himports, hclasses, -⟩ := hpaddings
      simp only [frame, hhead, hpath, heof, rightBlank_eq _ hpackage, rightBlanks_eq _ himports,
        blanks_eq _ hclasses]
    | _ => cases hkind
  | package n =>
    cases u with
    | package m =>
      simp only [hollow, package.injEq, Package.mk.injEq] at hhollow
      obtain ⟨hhead, -⟩ := hhollow
      simp only [frame, hhead]
    | _ => cases hkind
  | importDecl n =>
    cases u with
    | importDecl m =>
      simp only [hollow, importDecl.injEq, Import.mk.injEq] at hhollow
      obtain ⟨hhead, hstatic, -⟩ := hhollow
      simp only [frame, hhead, hstatic]
    | _ => cases hkind
  | classDeclaration n =>
    cases u with
    | classDeclaration m =>
      simp only [hollow, classDeclaration.injEq, ClassDeclaration.mk.injEq] at hhollow
      simp only [places, List.map_cons, List.map_map, List.cons.injEq] at hpaddings
      obtain ⟨hhead, hmodifiers, hlead, hkeyword, -, -, -, htype⟩ := hhollow
      obtain ⟨-, hsuper, -⟩ := hpaddings
      simp only [frame, hhead, hmodifiers, hlead, hkeyword, htype, leftBlank_eq _ hsuper]
    | _ => cases hkind
  | methodDeclaration n =>
    cases u with
    | methodDeclaration m =>
      simp only [hollow, methodDeclaration.injEq, MethodDeclaration.mk.injEq] at hhollow
      simp only [places, List.map_cons, List.map_map, List.cons.injEq] at hpaddings
      obtain ⟨hhead, hmodifiers, -, -, hparens, -, hmethod⟩ := hhollow
      obtain ⟨htype, -, hparameters, hbody, -⟩ := hpaddings
      simp only [frame, hhead, hmodifiers, hmethod, blank_eq _ htype, blank_eq _ hbody,
        containerBlank_eq _ hparameters hparens]
    | _ => cases hkind
  | block n =>
    cases u with
    | block m =>
      simp only [hollow, block.injEq, Block.mk.injEq] at hhollow
      simp only [places, List.map_cons, List.map_map, List.cons.injEq] at hpaddings
      obtain ⟨hhead, -, hend⟩ := hhollow
      obtain ⟨hstatements, -⟩ := hpaddings
      simp only [frame, hhead, hend, rightBlanks_eq _ hstatements]
    | _ => cases hkind
  | variableDeclarations n =>
    cases u with
    | variableDeclarations m =>
      simp only [hollow, variableDeclarations.injEq, VariableDeclarations.mk.injEq] at hhollow
      simp only [places, List.map_cons, List.map_map, List.cons.injEq] at hpaddings
      obtain ⟨hhead, hmodifiers, -⟩ := hhollow
      obtain ⟨htype, -, hinit, -⟩ := hpaddings
      simp only [frame, hhead, hmodifiers, blank_eq _ htype, leftBlank_eq _ hinit]
    | _ => cases hkind
  | returnStmt n =>
    cases u with
    | returnStmt m =>
      simp only [hollow, returnStmt.injEq, Return.mk.injEq] at hhollow
      simp only [places, List.map_cons, List.map_map, List.cons.injEq] at hpaddings
      obtain ⟨hhead, -⟩ := hhollow
      obtain ⟨hexpression, -⟩ := hpaddings
      simp only [frame, hhead, blank_eq _ hexpression]
    | _ => cases hkind
  | methodInvocation n =>
    cases u with
    | methodInvocation m =>
      simp only [hollow, methodInvocation.injEq, MethodInvocation.mk.injEq] at hhollow
      simp only [places, List.map_cons, List.map_map, List.cons.injEq] at hpaddings
      obtain ⟨hhead, -, -, hparens, htype⟩ := hhollow
      obtain ⟨hselect, -, hargs, -⟩ := hpaddings
      simp only [frame, hhead, htype, rightBlank_eq _ hselect, containerBlank_eq _ hargs hparens]
    | _ => cases hkind
  | newClass n =>
    cases u with
    | newClass m =>
      simp only [hollow, newClass.injEq, NewClass.mk.injEq] at hhollow
      simp only [places, List.map_cons, List.map_map, List.cons.injEq] at hpaddings
      obtain ⟨hhead, -, hparens, htype⟩ := hhollow
      obtain ⟨-, hargs, -⟩ := hpaddings
      simp only [frame, hhead, htype, containerBlank_eq _ hargs hparens]
    | _ => cases hkind
  | fieldAccess n =>
    cases u with
    | fieldAccess m =>
      simp only [hollow, fieldAccess.injEq, FieldAccess.mk.injEq] at hhollow
      obtain ⟨hhead, -, hname, htype⟩ := hhollow
      obtain ⟨hbefore, -, hmarkers⟩ := LeftPadded.mk.inj hname
      simp only [frame, LeftPadded.map, hhead, hbefore, hmarkers, htype]
    | _ => cases hkind
  | binary n =>
    cases u with
    | binary m =>
      simp only [hollow, binary.injEq, Binary.mk.injEq] at hhollow
      obtain ⟨hhead, -, hoperator, -, htype⟩ := hhollow
      simp only [frame, hhead, hoperator, htype]
    | _ => cases hkind
  | identifier n =>
    cases u with
    | identifier m => exact congrArg frame hhollow
    | _ => cases hkind
  | literal n =>
    cases u with
    | literal m => exact congrArg frame hhollow
    | _ => cases hkind
  | empty n =>
    cases u with
    | empty m => exact congrArg frame hhollow
    | _ => cases hkind

/-- A node has the frame that it had when other children of the same kinds come in. -/
theorem frame_mapChildren {f : Tree → Tree} (hkind : ∀ t, (f t).kind = t.kind) (t : Tree) :
    (mapChildren f t).frame = t.frame :=
  frame_eq_of_hollow (hollow_mapChildren f t) (paddings_mapChildren hkind t)

/-- Neither is the frame under another head a matter of the children. -/
theorem frame_withHead_mapChildren {f : Tree → Tree} (hkind : ∀ t, (f t).kind = t.kind)
    (h : Head) (t : Tree) : ((mapChildren f t).withHead h).frame = (t.withHead h).frame := by
  have hhollow : ∀ t : Tree, hollow (t.withHead h) = (hollow t).withHead h := fun t => by
    cases t <;> rfl
  have hpaddings : ∀ t : Tree, paddings (t.withHead h) = paddings t := fun t => by
    cases t <;> rfl
  have hsame : hollow (mapChildren f t) = hollow t := hollow_mapChildren f t
  refine frame_eq_of_hollow ?_ ?_
  · rw [hhollow, hhollow, hsame]
  · rw [hpaddings, hpaddings, paddings_mapChildren hkind]

/-! ### Trees -/

/-- **Trees with the same frames at the same positions are equal.** -/
theorem eq_of_frames {t u : Tree} (h : ∀ p, (at? u p).map frame = (at? t p).map frame) : u = t := by
  induction t using induction_on_children generalizing u with
  | step t ih =>
    -- the children are told by the positions right below the root, and are equal by induction
    have hchild : ∀ (t : Tree) i, at? t [i] = (children t)[i]? := fun t i => by
      rw [at?]
      cases (children t)[i]? <;> rfl
    refine ext_frame (Option.some.inj (h [])) (List.ext_getElem? fun i => ?_)
    have hi := h [i]
    rw [hchild, hchild] at hi
    cases hc : (children t)[i]? with
    | none => rwa [hc, Option.map_none, Option.map_eq_none_iff] at hi
    | some c =>
      rw [hc, Option.map_some, Option.map_eq_some_iff] at hi
      obtain ⟨d, hd, -⟩ := hi
      have hbelow : d = c := ih c (List.mem_of_getElem? hc) fun p => by
        rw [← at?_cons hd, ← at?_cons hc]
        exact h (i :: p)
      rw [hd, hbelow]

end Lossless.Java.Tree
