import Lossless.Proofs.Tree.Exchange
import Lossless.Proofs.Xml.Places

/-!
# Exchanging nodes of XML trees

An XML node prints the same around its children whatever these are
(`Lossless.Xml.Tree.skeleton_pieces_eq`): unlike in a Java tree nothing depends on how many there
are or what they look like. So nodes of the same kinds can come in the places of others
(`Lossless.Xml.Tree.accommodates`), and all that is known of exchanged nodes goes for XML trees: in
the text, what is replaced is exchanged and nothing else (`Lossless.Xml.Tree.exchanged_of_kinds`).
-/

namespace Lossless.Xml.Tree

/-! ### What a node prints around its children -/

section Lengths

variable {t u : Tree}

/-- Nodes with the same paddings have as many children in each field. -/
theorem lengths_eq (h : paddings u = paddings t) :
    (places u).map List.length = (places t).map List.length := by
  have hlengths := congrArg (List.map List.length) h
  simp only [paddings, List.map_map, Function.comp_def, List.length_map] at hlengths
  exact hlengths

theorem skeleton_map_child {α : Type} (tree : α → Tree) (as : List α) :
    skeleton (as.map fun a => .child (tree a)) = List.replicate as.length none := by
  simp only [skeleton, List.map_map, Function.comp_def, List.map_const']

theorem skeleton_map_tree (ts : List Tree) :
    skeleton (ts.map .child) = List.replicate ts.length none :=
  skeleton_map_child (fun t => t) ts

/-- Trees with the same own fields and the same paddings have the same texts between their children.
-/
theorem skeleton_body_eq (hhollow : hollow u = hollow t) (hpaddings : paddings u = paddings t) :
    skeleton u.body = skeleton t.body := by
  have hkind : u.kind = t.kind := Anatomy.kind_eq_of_hollow hhollow
  have hlengths := lengths_eq hpaddings
  cases t with
  | document n =>
    cases u with
    | document m =>
      simp only [hollow, document.injEq, Document.mk.injEq] at hhollow
      simp only [places, List.map_cons, List.length_map, List.cons.injEq] at hlengths
      simp only [body, skeleton_append, skeleton_map_child, skeleton_child, skeleton_text,
        hlengths.1, hhollow.2.2.2.2]
    | _ => cases hkind
  | prolog n =>
    cases u with
    | prolog m =>
      simp only [places, List.map_cons, List.length_map, List.cons.injEq] at hlengths
      simp only [body, skeleton_append, skeleton_map_child, skeleton_map_tree, hlengths.1,
        hlengths.2.1]
    | _ => cases hkind
  | xmlDecl n =>
    cases u with
    | xmlDecl m =>
      simp only [hollow, xmlDecl.injEq, XmlDecl.mk.injEq] at hhollow
      simp only [places, List.map_cons, List.length_map, List.cons.injEq] at hlengths
      simp only [body, attributePieces, skeleton_append, skeleton_map_child, skeleton_text,
        hlengths.1, hhollow.2.1, hhollow.2.2.2]
    | _ => cases hkind
  | tag n =>
    cases u with
    | tag m =>
      simp only [hollow, tag.injEq, Tag.mk.injEq] at hhollow
      simp only [places, List.map_cons, List.map_map, List.length_map, List.cons.injEq] at hlengths
      obtain ⟨-, hname, -, hcontent, hbefore, hclosing⟩ := hhollow
      obtain ⟨hattributes, hlength⟩ := hlengths
      have hinside : skeleton (contentPieces m) = skeleton (contentPieces n) := by
        rw [contentPieces, contentPieces]
        cases hm : m.content with
        | none =>
          cases hn : n.content with
          | none => rfl
          | some ts => simp [hm, hn] at hcontent
        | some us =>
          cases hn : n.content with
          | none => simp [hm, hn] at hcontent
          | some ts =>
            rw [hm, hn] at hlength
            simp only [Option.toList_some, List.map_cons, List.map_nil, Function.comp_apply,
              List.length_map, List.cons.injEq] at hlength
            simp only [skeleton_text, skeleton_append, skeleton_map_tree, hlength.1, hname,
              hclosing]
      simp only [body, attributePieces, skeleton_append, skeleton_map_child, skeleton_text,
        hattributes, hname, hbefore, hinside]
    | _ => cases hkind
  | attr n =>
    cases u with
    | attr m => rw [show m = n from attr.inj hhollow]
    | _ => cases hkind
  | charData n =>
    cases u with
    | charData m => rw [show m = n from charData.inj hhollow]
    | _ => cases hkind
  | comment n =>
    cases u with
    | comment m => rw [show m = n from comment.inj hhollow]
    | _ => cases hkind

end Lengths

/-- And the same text in front of them. -/
theorem skeleton_pieces_eq {t u : Tree} (hhollow : hollow u = hollow t)
    (hpaddings : paddings u = paddings t) :
    skeleton (Node.pieces u) = skeleton (Node.pieces t) := by
  have hlead : u.lead = t.lead := congrArg Head.lead (Anatomy.head_eq_of_hollow hhollow)
  show skeleton (.text u.lead.text :: u.body) = skeleton (.text t.lead.text :: t.body)
  rw [skeleton_text, skeleton_text, hlead, skeleton_body_eq hhollow hpaddings]

/-! ### Other children of the same kinds -/

/-- A node fits in the place of another of its kind. -/
def Fits (_parent old new : Tree) : Prop := Anatomy.kind new = Anatomy.kind old

/-- **XML nodes accommodate nodes of the same kinds.** -/
theorem accommodates : Accommodates Fits :=
  ⟨children_rebuild, fun h =>
    skeleton_pieces_eq (hollow_rebuild h.length_eq.symm) (paddings_rebuild h),
    fun h => kind_rebuild h.length_eq.symm⟩

/-! ### Replacing nodes -/

/-- Nodes are replaced by nodes of the same kinds. -/
def KeepsKinds (E : Replacements Tree) (t : Tree) : Prop :=
  ∀ p old new, at? t p = some old → E p = some new → new.kind = old.kind

/-- Replacements that keep the kinds fit in the tree. -/
theorem KeepsKinds.fitIn {E : Replacements Tree} {t : Tree} (h : KeepsKinds E t) :
    E.FitIn Fits t := by
  intro p parent i old new hparent hold hnew
  refine h (p ++ [i]) old new ?_ hnew
  rw [at?_append, hparent, Option.bind_some, at?_cons hold]
  rfl

/-- **Editing XML trees is lossless.** When nodes at disjoint positions are replaced by nodes of
their kinds, these stand where the old ones stood, and in the text those parts that were the
text of the old nodes are exchanged for the text of the new ones. Every other character stays. -/
theorem exchanged_of_kinds (t : Tree) (E : Replacements Tree) (hdisjoint : E.Disjoint t)
    (hkinds : KeepsKinds E t) :
    Exchanged 0 (exchanges E t) (text t) (text (replace E t)) ∧
      ∀ p ∈ positions t, ∀ new, E p = some new → at? (replace E t) p = some new :=
  ⟨accommodates.exchanged_replace hdisjoint hkinds.fitIn, fun _ hp _ hnew =>
    accommodates.at?_replace hdisjoint hkinds.fitIn hp hnew⟩

/-- The document `<?xml version="1.0"?><a><b/>x</a>`, with no closing half stored for `a`. -/
def declaredDocument : Tree :=
  .document
    { prolog := some
        { decl := some
            { name := "xml", attributes := [{ key := "version", value := { value := "1.0" } }] } }
      root := { name := "a", content := some [.tag { name := "b" }, .charData { text := "x" }] } }

/-- Another version for the declaration. -/
def otherVersion : Attribute := { key := "v", value := { quote := .single, value := "1.1" } }

/-- The tag `<cc></cc>`, with a closing half. -/
def otherTag : Tag Tree := { name := "cc", content := some [], closing := some { name := "cc" } }

/-- Another version in the declaration, and a tag with a closing half for the one that closes
itself. -/
def otherVersionAndTag : Replacements Tree := fun p =>
  if p = [0, 0, 0] then some (.attr otherVersion)
  else if p = [1, 0] then some (.tag otherTag)
  else none

/-- What the two replacements of the case below are. -/
theorem otherVersionAndTag_eq_some {p : Position} {new : Tree}
    (h : otherVersionAndTag p = some new) :
    p = [0, 0, 0] ∧ new = .attr otherVersion ∨ p = [1, 0] ∧ new = .tag otherTag := by
  rw [otherVersionAndTag] at h
  split at h
  · exact .inl ⟨‹_›, (Option.some.inj h).symm⟩
  · split at h
    · exact .inr ⟨‹_›, (Option.some.inj h).symm⟩
    · cases h

/-- An attribute of the declaration and a tag in the root are replaced at once. -/
theorem exchanged_of_kinds_declaredDocument :
    otherVersionAndTag.Disjoint declaredDocument ∧
      KeepsKinds otherVersionAndTag declaredDocument ∧
      Exchanged 0 (exchanges otherVersionAndTag declaredDocument) (text declaredDocument)
        (text (replace otherVersionAndTag declaredDocument)) := by
  have hdisjoint : otherVersionAndTag.Disjoint declaredDocument := by
    intro p _ q _ hp hq hpre
    obtain ⟨u, hu⟩ := Option.isSome_iff_exists.mp hp
    obtain ⟨v, hv⟩ := Option.isSome_iff_exists.mp hq
    rcases otherVersionAndTag_eq_some hu with ⟨rfl, -⟩ | ⟨rfl, -⟩ <;>
      rcases otherVersionAndTag_eq_some hv with ⟨rfl, -⟩ | ⟨rfl, -⟩ <;>
      first | rfl | exact absurd hpre (by decide)
  have hkinds : KeepsKinds otherVersionAndTag declaredDocument := by
    intro p old new hold hnew
    rcases otherVersionAndTag_eq_some hnew with ⟨rfl, rfl⟩ | ⟨rfl, rfl⟩ <;>
      · obtain rfl := Option.some.inj hold
        rfl
  exact ⟨hdisjoint, hkinds, (exchanged_of_kinds _ _ hdisjoint hkinds).1⟩

end Lossless.Xml.Tree
