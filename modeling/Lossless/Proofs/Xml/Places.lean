import Lossless.Proofs.Tree.Settled
import Lossless.Xml.Tree

/-!
# The places of XML nodes

As for Java nodes, `Lossless.Xml.Tree.places` lists the places of each kind of nodes and
`Lossless.Xml.Tree.hollow` takes everything out of them. Whether a tag closes itself is no
matter of its places: a tag with content keeps a content, be it empty.
-/

namespace Lossless.Xml.Tree

open Place

/-- A node with nothing in its places. -/
def hollow : Tree → Tree
  | .document n => .document { n with prolog := none, root := {} }
  | .prolog n => .prolog { n with decl := none, misc := [] }
  | .xmlDecl n => .xmlDecl { n with attributes := [] }
  | .tag n => .tag { n with attributes := [], content := n.content.map fun _ => [] }
  | .attr n => .attr n
  | .charData n => .charData n
  | .comment n => .comment n

/-- The places of a node. -/
def places : Tree → List (List (Place Tree Kind))
  | .document n => [n.prolog.toList.map (ofKind prolog .prolog), [fixed tag .tag n.root]]
  | .prolog n => [n.decl.toList.map (ofKind xmlDecl .xmlDecl), n.misc.map plain]
  | .xmlDecl n => [n.attributes.map (ofKind attr .attr)]
  | .tag n => n.attributes.map (ofKind attr .attr) :: n.content.toList.map fun ts => ts.map plain
  | .attr _ | .charData _ | .comment _ => []

/-- The places are for the children, in their order. -/
theorem map_child_places (t : Tree) : (places t).flatten.map Place.child = children t := by
  rw [children_eq_inner]
  cases t with
  | tag n =>
    cases hcontent : n.content <;>
      simp [places, inner, hcontent, Function.comp_def, ofKind, plain]
  | _ => simp [places, inner, Function.comp_def, ofKind, fixed, plain]

/-- In a place for one kind of nodes there is a node of this kind. -/
theorem kind_of_only (t : Tree) : ∀ p ∈ (places t).flatten, ∀ k ∈ p.only, kind p.child = k := by
  cases t with
  | tag n =>
    cases hcontent : n.content <;>
      simp [places, hcontent, or_imp, forall_and, ofKind, plain, kind]
  | _ => simp [places, or_imp, forall_and, ofKind, fixed, plain, kind]

theorem attr_injective : attr.Injective := fun _ _ h => by cases h; rfl

theorem prolog_injective : prolog.Injective := fun _ _ h => by cases h; rfl

theorem xmlDecl_injective : xmlDecl.Injective := fun _ _ h => by cases h; rfl

/-- **A node consists of its places and of what is not in them.** -/
theorem ext_places {t u : Tree} (hhollow : hollow t = hollow u) (hplaces : places t = places u) :
    t = u := by
  have hattributes {as bs : List Attribute} :
      as.map (ofKind attr Kind.attr) = bs.map (ofKind attr .attr) → as = bs :=
    fun h => List.map_injective_iff.mpr (ofKind_injective attr_injective _) h
  have hnodes {ts us : List Tree} :
      ts.map (plain : _ → Place Tree Kind) = us.map plain → ts = us :=
    fun h => List.map_injective_iff.mpr plain_injective h
  cases t <;> cases u <;> try (simp only [hollow, reduceCtorEq] at hhollow; done)
  case document m n =>
    simp only [places, List.cons.injEq] at hplaces
    have hprolog := (toList_map_inj (ofKind_injective prolog_injective _)).mp hplaces.1
    have hroot := congrArg Place.child hplaces.2.1.1
    cases m; cases n
    simp_all [hollow, fixed]
  case prolog m n =>
    simp only [places, List.cons.injEq] at hplaces
    have hdecl := (toList_map_inj (ofKind_injective xmlDecl_injective _)).mp hplaces.1
    have hmisc := hnodes hplaces.2.1
    cases m; cases n
    simp_all [hollow]
  case xmlDecl m n =>
    simp only [places, List.cons.injEq] at hplaces
    have has := hattributes hplaces.1
    cases m; cases n
    simp_all [hollow]
  case tag m n =>
    simp only [places, List.cons.injEq] at hplaces
    have has := hattributes hplaces.1
    have hcontent : m.content = n.content := by
      have hmap := List.map_injective_iff.mpr (List.map_injective_iff.mpr plain_injective)
        hplaces.2
      cases hm : m.content <;> cases hn : n.content <;> simp_all
    cases m; cases n
    simp_all [hollow]
  all_goals exact hhollow

instance : Anatomy Tree Kind where
  kind := kind
  head := head
  hollow := hollow
  places := places
  kind_hollow t := by cases t <;> rfl
  head_hollow t := by cases t <;> rfl
  map_child_places := map_child_places
  kind_of_only := kind_of_only
  ext := ext_places

/-! ### Kinds -/

theorem isKind_prolog : IsKind prolog prolog? .prolog where
  cast_tree _ := rfl
  eq_tree {t n} h := by cases t <;> simp_all [prolog?]
  isSome_cast t := by cases t <;> simp [prolog?, Anatomy.kind, kind]

theorem isKind_xmlDecl : IsKind xmlDecl xmlDecl? .xmlDecl where
  cast_tree _ := rfl
  eq_tree {t n} h := by cases t <;> simp_all [xmlDecl?]
  isSome_cast t := by cases t <;> simp [xmlDecl?, Anatomy.kind, kind]

theorem isKind_tag : IsKind tag tag? .tag where
  cast_tree _ := rfl
  eq_tree {t n} h := by cases t <;> simp_all [tag?]
  isSome_cast t := by cases t <;> simp [tag?, Anatomy.kind, kind]

theorem isKind_attr : IsKind attr attribute? .attr where
  cast_tree _ := rfl
  eq_tree {t n} h := by cases t <;> simp_all [attribute?]
  isSome_cast t := by cases t <;> simp [attribute?, Anatomy.kind, kind]

/-! ### Reading -/

section Reading

open Answers

/-- The attributes of a tag fill the places of a field in which all children are attributes. -/
theorem fills_attributes (as : List Attribute) :
    Fills (list (Answers.plainFixed attribute?) as) (as.map (ofKind attr .attr))
      (Shows fun as => as.map (ofKind attr .attr)) :=
  fills_list (settle_ofKind isKind_attr) as

/-- The nodes of a tag's content fill the places of a field of any kind. -/
theorem fills_nodes (ts : List Tree) :
    Fills (list Answers.plain ts) (ts.map plain) (Shows fun ts => ts.map plain) :=
  fills_list settle_plain ts

/-- **Every kind of nodes fills its places.** -/
theorem fills_answered (t : Tree) :
    FillsAll t.answered (places t) fun u pss => hollow u = hollow t ∧ places u = pss := by
  cases t with
  | document n =>
    refine (fills_optional (settle_ofKind isKind_prolog) n.prolog).bind fun prolog _ hprolog =>
      (fills_fixed isKind_tag n.root).bind fun root _ hroot => .pure ⟨rfl, ?_⟩
    rw [← hprolog, ← hroot, places]
  | prolog n =>
    refine (fills_optional (settle_ofKind isKind_xmlDecl) n.decl).bind fun decl _ hdecl =>
      (fills_nodes n.misc).bind fun misc _ hmisc => .pure ⟨rfl, ?_⟩
    rw [← hdecl, ← hmisc, places]
  | xmlDecl n =>
    refine (fills_attributes n.attributes).bind fun attributes _ hattributes => .pure ⟨rfl, ?_⟩
    rw [← hattributes, places]
  | tag n =>
    obtain ⟨hd, name, attributes, content, beforeClose, closing⟩ := n
    refine (fills_attributes attributes).bind fun attributes' _ hattributes => ?_
    cases content with
    | none =>
      refine .pure ⟨rfl, ?_⟩
      rw [← hattributes, places]
      rfl
    | some content =>
      refine (fills_nodes content).bind fun content' _ hcontent => .pure ⟨rfl, ?_⟩
      rw [← hattributes, ← hcontent, places]
      rfl
  | attr n => exact .pure ⟨rfl, rfl⟩
  | charData n => exact .pure ⟨rfl, rfl⟩
  | comment n => exact .pure ⟨rfl, rfl⟩

end Reading

/-- **What becomes of an XML node**: an update settles its places, leaves all else, and gives
the very same node exactly if no place changes. -/
instance : LawfulNode Tree Kind where
  settled_update t _ h := (fills_answered t).settled h

end Lossless.Xml.Tree
