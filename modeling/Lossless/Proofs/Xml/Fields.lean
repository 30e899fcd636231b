import Lossless.Proofs.Xml.Places
import Lossless.Xml.Edit

/-!
# Fields of documents

An edit of a field compares the whole document before and after it, and leaves it alone if the two
are alike. For a document this comes down to the one field: the two are alike just if the new value
agrees with the old one (`Lossless.Xml.Document.Field.Agrees`), up to the identities of nodes. So
whatever is set reads back, and what agrees already changes nothing.

What has to be seen is that a document without identities is made of its fields without
identities (`Lossless.Xml.Tree.anonymous_document`). Its prolog and its root go through answers, and
come back since they are still a prolog and a tag.
-/

namespace Lossless.Xml

namespace Tree

/-- A prolog without identities. -/
def anonymousProlog (n : Prolog Tree) : Prolog Tree := (anonymous (.prolog n)).prolog?.getD n

/-- A tag without identities. -/
def anonymousTag (n : Tag Tree) : Tag Tree := (anonymous (.tag n)).tag?.getD n

theorem children_bare (t : Tree) : children t.bare = children t := by
  rw [children_eq_inner, children_eq_inner]
  cases t <;> rfl

/-- A tree without ids is the node without its id over the children without theirs. -/
theorem anonymous_eq (t : Tree) : anonymous t = mapChildren anonymous t.bare := by
  rw [anonymous, List.map_subtype (g := anonymous) fun c _ => rfl, List.unattach_attach,
    mapChildren, children_bare]

/-- A tree without identities is of the kind that it was. -/
theorem kind_anonymous (t : Tree) : t.anonymous.kind = t.kind := by
  rw [anonymous_eq]
  refine (kind_rebuild (τ := Tree) (List.length_map _)).trans ?_
  cases t <;> rfl

theorem prolog_anonymousProlog (n : Prolog Tree) :
    .prolog (anonymousProlog n) = anonymous (.prolog n) := by
  have hkind := kind_anonymous (.prolog n)
  rw [anonymousProlog]
  cases h : anonymous (.prolog n) with
  | prolog m => rfl
  | _ => rw [h] at hkind; cases hkind

theorem tag_anonymousTag (n : Tag Tree) : .tag (anonymousTag n) = anonymous (.tag n) := by
  have hkind := kind_anonymous (.tag n)
  rw [anonymousTag]
  cases h : anonymous (.tag n) with
  | tag m => rfl
  | _ => rw [h] at hkind; cases hkind

theorem anonymousTag_inj {m n : Tag Tree} :
    anonymousTag m = anonymousTag n ↔ anonymous (.tag m) = anonymous (.tag n) := by
  rw [← tag_anonymousTag, ← tag_anonymousTag, tag.injEq]

theorem map_anonymousProlog_inj {o p : Option (Prolog Tree)} :
    o.map anonymousProlog = p.map anonymousProlog ↔
      o.map (anonymous ∘ .prolog) = p.map (anonymous ∘ .prolog) := by
  have hmap : ∀ o : Option (Prolog Tree),
      o.map (anonymous ∘ .prolog) = (o.map anonymousProlog).map .prolog := fun o => by
    rw [Option.map_map]
    exact congrArg (o.map ·) (funext fun n => (prolog_anonymousProlog n).symm)
  rw [hmap, hmap]
  exact (Option.map_injective fun _ _ => Tree.prolog.inj).eq_iff.symm

/-- **A document without identities**, field by field. -/
theorem anonymous_document (n : Document Tree) :
    anonymous (.document n) = .document
      { toHead := n.anonymous, sourcePath := SourcePath.normalize n.sourcePath,
        prolog := n.prolog.map anonymousProlog, root := anonymousTag n.root, eof := n.eof } := by
  rw [anonymous_eq]
  refine Anatomy.ext (hollow_rebuild (List.length_map _)) ((places_mapChildren ?_).trans ?_)
  · exact fun p hp k hk => (kind_anonymous p.child).trans (Anatomy.kind_of_only _ p hp k hk)
  · cases hprolog : n.prolog <;>
      simp [Anatomy.places, places, bare, hprolog, Place.mapChild, Place.ofKind, Place.fixed,
        prolog_anonymousProlog, tag_anonymousTag]

end Tree

namespace Document

/-- A field of a document with a new value. -/
inductive Field where
  | root (value : Tag Tree)
  | lead (value : Space)
  | prolog (value : Option (Prolog Tree))
  | markers (value : Markers)

namespace Field

/-- The edit of a field. -/
def edit : Field → Edit
  | .root value => .root value
  | .lead value => .lead value
  | .prolog value => .prolog value
  | .markers value => .markers value

/-- The document with a new value of a field. -/
def put (n : Document Tree) : Field → Document Tree
  | .root value => { n with root := value }
  | .lead value => { n with lead := value }
  | .prolog value => { n with prolog := value }
  | .markers value => { n with markers := value }

/-- A document has a value in a field, or one that differs in the identities of nodes only. -/
def Agrees (n : Document Tree) : Field → Prop
  | .root value => (Tree.tag n.root).anonymous = (Tree.tag value).anonymous
  | .lead value => n.lead = value
  | .prolog value =>
    n.prolog.map (Tree.anonymous ∘ .prolog) = value.map (Tree.anonymous ∘ .prolog)
  | .markers value => n.markers = value

variable {n : Document Tree} {f : Field}

/-- A field that has been put agrees with the document. -/
theorem agrees_put (n : Document Tree) (f : Field) : f.Agrees (f.put n) := by
  cases f <;> rfl

/-- **A document is alike what is put into it just if they agree in the field.** -/
theorem alike_put_iff :
    (Tree.document (f.put n)).alike (.document n) = true ↔ f.Agrees n := by
  rw [Tree.alike, decide_eq_true_eq, Tree.anonymous_document, Tree.anonymous_document,
    Tree.document.injEq]
  cases f with
  | root value =>
    simp only [put, Agrees, Document.mk.injEq, true_and, and_true, Tree.anonymousTag_inj]
    exact eq_comm
  | lead value =>
    simp only [put, Agrees, Document.mk.injEq, Head.anonymous, Head.mk.injEq, true_and, and_true]
    exact eq_comm
  | prolog value =>
    simp only [put, Agrees, Document.mk.injEq, true_and, and_true, Tree.map_anonymousProlog_inj]
    exact eq_comm
  | markers value =>
    simp only [put, Agrees, Document.mk.injEq, Head.anonymous, Head.mk.injEq, true_and, and_true]
    exact eq_comm

/-- An edit of a field leaves the document where the new value is alike and puts the field
otherwise. -/
theorem edit_eq (n : Document Tree) (f : Field) :
    n.edit f.edit = if (Tree.document (f.put n)).alike (.document n) then n else f.put n := by
  have hset : (Tree.document n).set f.edit = .document (f.put n) := by cases f <;> rfl
  rw [Document.edit, Tree.edit, hset]
  split <;> rfl

/-- What agrees with a document already is not set. -/
theorem edit_of_agrees (h : f.Agrees n) : n.edit f.edit = n := by
  rw [edit_eq, if_pos (alike_put_iff.mpr h)]

/-- **What is set reads back.** -/
theorem agrees_edit (n : Document Tree) (f : Field) : f.Agrees (n.edit f.edit) := by
  by_cases h : f.Agrees n
  · rwa [edit_of_agrees h]
  · rw [edit_eq, if_neg fun halike => h (alike_put_iff.mp halike)]
    exact agrees_put n f

/-- Markers are set as they are. -/
theorem edit_markers (n : Document Tree) (markers : Markers) :
    n.edit (.markers markers) = { n with markers } := by
  show n.edit (Field.markers markers).edit = put n (.markers markers)
  by_cases h : (Field.markers markers).Agrees n
  · rw [edit_of_agrees h]
    obtain rfl : n.markers = markers := h
    rfl
  · rw [edit_eq, if_neg fun halike => h (alike_put_iff.mp halike)]

end Field

end Document

end Lossless.Xml
