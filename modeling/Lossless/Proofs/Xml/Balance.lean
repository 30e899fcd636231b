import Lossless.Proofs.Tree.Pieces
import Lossless.Proofs.Visitor.Walk
import Lossless.Proofs.Xml.Fields

/-!
# Balanced tags

The name of a tag is stored twice, in the tag and in its closing half, and there may be no closing
half at all. A tree is balanced (`Lossless.Xml.Tree.Balanced`) if the two agree wherever there are
two, at every depth; then every tag with content is printed with its name at both ends
(`Lossless.Xml.Tree.text_tag`).

An edit sets one field and leaves all others alone. No edit but one sets either of the names, and
then the node is as balanced as what comes in (`Lossless.Xml.Edit.brought`). The exception is the
edit that gives a tag another name: it does not reach the closing half, and leaves behind a tag that
is balanced just if there is none, or if the new name is the one that stands there
(`Lossless.Xml.Tree.balanced_edit_name_iff`). A walk over the children keeps both names, whatever
the answers are (`Lossless.Xml.Tree.balanced_walkWith`).
-/

namespace Lossless.Xml

namespace Tag

variable {α : Type}

/-- The closing half of a tag, if it is stored, has the name of the tag. -/
def ClosesByName (n : Tag α) : Prop := ∀ c ∈ n.closing, c.name = n.name

instance (n : Tag α) : Decidable n.ClosesByName :=
  inferInstanceAs (Decidable (∀ c ∈ n.closing, c.name = n.name))

/-- The closing half of a tag as it is printed, stored or not. -/
def closes (n : Tag α) : Closing := n.closing.getD { name := n.name }

/-- A tag that closes by its name has this name in its closing part. -/
theorem ClosesByName.name_closes {n : Tag α} (h : n.ClosesByName) : n.closes.name = n.name := by
  rw [closes]
  cases hclosing : n.closing with
  | none => rfl
  | some c => exact h c hclosing

end Tag

/-- The trees that an edit brings in. -/
def Edit.brought : Edit → List Tree
  | .prolog p => p.toList.map .prolog
  | .root n => [.tag n]
  | .decl d => d.toList.map .xmlDecl
  | .misc ts => ts
  | .attributes as => as.map .attr
  | .content ts => ts.getD []
  | .child _ new => [.tag new]
  | .lead _ | .markers _ | .eof _ | .name _ | .text _ | .attributeValue _ | .value _ => []

namespace Tree

/-- In all tags of a tree, the closing half has the name of the tag. -/
def Balanced (t : Tree) : Prop := ∀ n : Tag Tree, .tag n ∈ nodes t → n.ClosesByName

/-! ### Balance, node by node -/

/-- A tree is balanced if its root closes by its name, should it be a tag, and its children are
balanced. -/
theorem balanced_iff {t : Tree} :
    t.Balanced ↔ (∀ n, t = .tag n → n.ClosesByName) ∧ ∀ c ∈ children t, c.Balanced := by
  constructor
  · intro h
    refine ⟨fun n hn => h n (hn ▸ self_mem_nodes t), fun c hc n hn => h n ?_⟩
    exact nodes_subset_of_mem_children hc hn
  · rintro ⟨hself, hbelow⟩ n hn
    rcases mem_nodes.mp hn with htag | ⟨c, hc, hn⟩
    · exact hself n htag.symm
    · exact hbelow c hc n hn

/-- Each node of a balanced tree is balanced. -/
theorem Balanced.of_mem_nodes {t u : Tree} (ht : t.Balanced) (hu : u ∈ nodes t) : u.Balanced :=
  fun n hn => ht n (nodes_subset_of_mem_nodes hu hn)

/-- A node without children that is no tag is balanced. -/
theorem balanced_of_no_children {t : Tree} (h : children t = []) (htag : t.kind ≠ .tag) :
    t.Balanced := by
  refine balanced_iff.mpr ⟨?_, by simp [h]⟩
  rintro n rfl
  exact absurd rfl htag

@[simp]
theorem balanced_attr (n : Attribute) : (attr n).Balanced :=
  balanced_of_no_children (children_eq_inner _) nofun

@[simp]
theorem balanced_charData (n : CharData) : (charData n).Balanced :=
  balanced_of_no_children (children_eq_inner _) nofun

@[simp]
theorem balanced_comment (n : Comment) : (comment n).Balanced :=
  balanced_of_no_children (children_eq_inner _) nofun

@[simp]
theorem balanced_xmlDecl (n : XmlDecl) : (xmlDecl n).Balanced := by
  simp [balanced_iff (t := xmlDecl n), children_eq_inner, inner]

@[simp]
theorem balanced_document {n : Document Tree} :
    (document n).Balanced ↔ (∀ p ∈ n.prolog, (prolog p).Balanced) ∧ (tag n.root).Balanced := by
  simp [balanced_iff (t := document n), children_eq_inner, inner, or_imp, forall_and]

@[simp]
theorem balanced_prolog {n : Prolog Tree} :
    (prolog n).Balanced ↔ ∀ t ∈ n.misc, t.Balanced := by
  simp [balanced_iff (t := prolog n), children_eq_inner, inner, or_imp, forall_and]

@[simp]
theorem balanced_tag {n : Tag Tree} :
    (tag n).Balanced ↔ n.ClosesByName ∧ ∀ t ∈ n.content.getD [], t.Balanced := by
  simp [balanced_iff (t := tag n), children_eq_inner, inner, or_imp, forall_and]

/-! ### What is printed -/

/-- The text of a closing part. -/
theorem chars_closing (n : Tag Tree) : chars (closingPieces n.name n.closing) =
    (n.closes.lead.text ++ "</" ++ n.closes.name ++ n.closes.beforeClose.text ++ ">").toList := by
  rw [Tag.closes]
  cases n.closing <;> simp [closingPieces, Space.empty]

/-- The text of the attributes is that of each one behind the other. -/
theorem chars_attributes (as : List Attribute) :
    chars (attributePieces as) = as.flatMap fun a => text (attr a) := by
  rw [chars, attributePieces, List.flatMap_map]
  rfl

theorem chars_children (ts : List Tree) : chars (ts.map .child) = ts.flatMap text := by
  rw [chars, List.flatMap_map]
  rfl

/-- What a tag with content is printed as. -/
theorem text_tag {n : Tag Tree} {ts : List Tree} (h : n.content = some ts) :
    text (tag n) =
      (n.lead.text ++ "<" ++ n.name).toList ++ n.attributes.flatMap (fun a => text (attr a)) ++
        (n.beforeClose.text ++ ">").toList ++ ts.flatMap text ++
        (n.closes.lead.text ++ "</" ++ n.closes.name ++ n.closes.beforeClose.text ++
          ">").toList := by
  have hpieces : Node.pieces (tag n) =
      [.text n.lead.text, .text "<", .text n.name] ++ attributePieces n.attributes ++
        [.text n.beforeClose.text] ++ .text ">" :: (ts.map .child ++
          closingPieces n.name n.closing) := by
    show .text n.lead.text :: body (tag n) = _
    rw [body, contentPieces, h]
    rfl
  rw [text_eq, hpieces]
  change chars _ = _
  simp only [chars_append, chars_text, chars_attributes, chars_children, chars_closing,
    String.toList_append, List.append_assoc, List.nil_append, List.cons_append]

/-! ### Edits -/

/-- Identity and leading text are nothing to the balance. -/
theorem balanced_withHead {t : Tree} (h : Head) : (t.withHead h).Balanced ↔ t.Balanced := by
  cases t <;> simp [withHead, Tag.ClosesByName]

/-- Another value for a tag leaves its names alone, or brings in a closing half of its name. -/
theorem balanced_withValue {n : Tag Tree} (h : (tag n).Balanced) (value : String) :
    (tag (n.withValue value)).Balanced := by
  rw [Tag.withValue]
  split
  · exact h
  · have hname : n.closes.name = n.name := (balanced_tag.mp h).1.name_closes
    refine balanced_tag.mpr ⟨fun c hc => ?_, by simp⟩
    obtain rfl := Option.some.inj hc
    exact hname

/-- Other children for a tag leave its names alone. -/
theorem balanced_replaceChild {n old new : Tag Tree} (h : (tag n).Balanced)
    (hnew : (tag new).Balanced) : (tag (n.replaceChild old new)).Balanced := by
  obtain ⟨hname, hcontent⟩ := balanced_tag.mp h
  refine balanced_tag.mpr ⟨hname, ?_⟩
  rw [Tag.replaceChild]
  cases hts : n.content with
  | none => simp
  | some ts =>
    rw [hts] at hcontent
    intro t ht
    obtain ⟨c, hc, rfl⟩ := List.mem_map.mp ht
    split
    · exact hnew
    · exact hcontent c hc

/-- Setting a field to balanced trees keeps a tree balanced, unless it is the name. -/
theorem balanced_set {t : Tree} {e : Edit} (ht : t.Balanced)
    (hbrought : ∀ u ∈ e.brought, u.Balanced) (hname : ∀ s, e ≠ .name s) : (t.set e).Balanced := by
  cases e with
  | lead s => exact (balanced_withHead _).mpr ht
  | markers m => exact (balanced_withHead _).mpr ht
  | name s => exact absurd rfl (hname s)
  | prolog p =>
    cases t with
    | document n =>
      refine balanced_document.mpr ⟨fun q hq => hbrought _ ?_, (balanced_document.mp ht).2⟩
      exact List.mem_map_of_mem (Option.mem_toList.mpr hq)
    | _ => exact ht
  | root n =>
    cases t with
    | document n =>
      exact balanced_document.mpr ⟨(balanced_document.mp ht).1, hbrought _ List.mem_cons_self⟩
    | _ => exact ht
  | misc ts =>
    cases t with
    | prolog n => exact balanced_prolog.mpr hbrought
    | _ => exact ht
  | content ts =>
    cases t with
    | tag n => exact balanced_tag.mpr ⟨(balanced_tag.mp ht).1, hbrought⟩
    | _ => exact ht
  | value s =>
    cases t with
    | tag n => exact balanced_withValue ht s
    | _ => exact ht
  | child old new =>
    cases t with
    | tag n => exact balanced_replaceChild ht (hbrought _ List.mem_cons_self)
    | _ => exact ht
  -- what is left sets a field without tags in it
  | _ => cases t <;> simp_all [set, Tag.ClosesByName]

/-- So does an edit, which sets the field or leaves the tree. -/
theorem balanced_edit {t : Tree} {e : Edit} (ht : t.Balanced)
    (hbrought : ∀ u ∈ e.brought, u.Balanced) (hname : ∀ s, e ≠ .name s) : (t.edit e).Balanced := by
  rw [edit]
  split
  · exact ht
  · exact balanced_set ht hbrought hname

/-! ### Another name -/

/-- A tag keeps its names if its places are emptied. -/
theorem names_of_hollow {m n : Tag Tree}
    (h : Anatomy.hollow (tag m) = Anatomy.hollow (tag n)) :
    m.name = n.name ∧ m.closing = n.closing := by
  have hfields := Tag.mk.inj (tag.inj h)
  exact ⟨hfields.2.1, hfields.2.2.2.2.2⟩

/-- Without ids a tree has the fields it has without children. -/
theorem hollow_anonymous (t : Tree) : Anatomy.hollow t.anonymous = Anatomy.hollow t.bare := by
  rw [anonymous_eq]
  exact hollow_rebuild (List.length_map _)

/-- Tags that are alike have the same name. -/
theorem name_eq_of_alike {m n : Tag Tree} (h : (tag m).alike (tag n) = true) : m.name = n.name := by
  have hhollow := congrArg Anatomy.hollow (of_decide_eq_true h)
  rw [hollow_anonymous, hollow_anonymous] at hhollow
  exact (names_of_hollow (m := { m with toHead := m.anonymous })
    (n := { n with toHead := n.anonymous }) hhollow).1

/-- A tag gets another name, and nothing else changes. -/
theorem edit_name (n : Tag Tree) (s : String) :
    (tag n).edit (.name s) = tag { n with name := s } := by
  rw [edit]
  split
  case isTrue halike =>
    obtain rfl : s = n.name := name_eq_of_alike halike
    rfl
  case isFalse => rfl

/-- **A tag of another name** is balanced just if its closing half had that name already. -/
theorem balanced_edit_name_iff {n : Tag Tree} (h : (tag n).Balanced) (s : String) :
    ((tag n).edit (.name s)).Balanced ↔ ∀ c ∈ n.closing, c.name = s := by
  rw [edit_name, balanced_tag]
  exact and_iff_left (balanced_tag.mp h).2

/-- The tag `<a></a>`, with a closing half. -/
def closedTag : Tag Tree := { name := "a", content := some [], closing := some { name := "a" } }

/-- A tag that closes by its name no longer does so under another name. -/
theorem not_balanced_edit_name : (tag closedTag).Balanced ∧
    ¬((tag closedTag).edit (.name "b")).Balanced ∧
      text ((tag closedTag).edit (.name "b")) = "<b></a>".toList := by
  have hbalanced : (tag closedTag).Balanced := by simp [closedTag, Tag.ClosesByName]
  refine ⟨hbalanced, ?_, ?_⟩
  · rw [balanced_edit_name_iff hbalanced]
    simp [closedTag]
  · rw [edit_name]
    exact (text_tag rfl).trans rfl

/-! ### Walks -/

/-- Around other children a tag keeps both names. -/
theorem balanced_update {t : Tree} {answers : List (Option (Update Tree))} (ht : t.Balanced)
    (hlength : answers.length = (children t).length)
    (hanswers : ∀ u, some (.new u) ∈ answers → u.Balanced) :
    ((Node.update t answers).of t).Balanced := by
  have hsettled := settled_update t answers hlength
  obtain ⟨hself, hchildren⟩ := balanced_iff.mp ht
  refine balanced_iff.mpr ⟨fun n hn => ?_, fun c hc => ?_⟩
  · have hkind := hsettled.kind_eq
    have hhollow := hsettled.hollow_eq
    rw [hn] at hkind hhollow
    cases t with
    | tag m =>
      obtain ⟨hname, hclosing⟩ := names_of_hollow hhollow
      rw [Tag.ClosesByName, hname, hclosing]
      exact hself m rfl
    | _ => cases hkind
  -- an answer that no place takes leaves the old child there, which was balanced before
  · rcases hsettled.child_or_answer hc with hc | hc
    · exact hchildren c hc
    · exact hanswers c hc

/-- **A walk that is answered with balanced trees** leaves a balanced tree. -/
theorem balanced_walkWith {σ : Type} {ask : Tree → StateM σ (Option (Update Tree))} {t : Tree}
    (ht : t.Balanced)
    (hask : ∀ c ∈ children t, ∀ s u, (ask c s).1 = some (.new u) → u.Balanced) (s : σ) :
    ((walkWith ask t s).1.of t).Balanced := by
  refine balanced_update ht (length_of_mapM _ s) fun u hu => ?_
  obtain ⟨c, hc, s', hanswer⟩ := answer_of_mapM hu
  exact hask c hc s' u hanswer

/-! ### All operations -/

/-- **Tags stay balanced** as long as what comes in is balanced: whatever is set but the name of a
tag, and whatever a walk over the children answers. A tag with another name is balanced just if its
closing half had that name already. And in a balanced tree, each tag with content is closed by the
name that opened it. -/
theorem stays_balanced {t : Tree} (ht : t.Balanced) :
    (∀ e : Edit, (∀ u ∈ e.brought, u.Balanced) → (∀ s, e ≠ .name s) → (t.edit e).Balanced) ∧
    (∀ n s, .tag n ∈ nodes t → (((tag n).edit (.name s)).Balanced ↔ ∀ c ∈ n.closing, c.name = s)) ∧
    (∀ {σ : Type} (ask : Tree → StateM σ (Option (Update Tree))) (s : σ),
      (∀ c ∈ children t, ∀ s u, (ask c s).1 = some (.new u) → u.Balanced) →
        ((walkWith ask t s).1.of t).Balanced) ∧
    ∀ n ts, .tag n ∈ nodes t → n.content = some ts → text (tag n) =
      (n.lead.text ++ "<" ++ n.name).toList ++ n.attributes.flatMap (fun a => text (attr a)) ++
        (n.beforeClose.text ++ ">").toList ++ ts.flatMap text ++
        (n.closes.lead.text ++ "</" ++ n.name ++ n.closes.beforeClose.text ++ ">").toList := by
  refine ⟨fun e => balanced_edit ht, fun n s hn => ?_, fun ask s hask => ?_, fun n ts hn hts => ?_⟩
  · exact balanced_edit_name_iff (ht.of_mem_nodes hn) s
  · exact balanced_walkWith ht hask s
  · rw [text_tag hts, (ht n hn).name_closes]

/-- The tag `<a><b></b></a>`, with no closing half stored for `b`. -/
def nestedTag : Tag Tree :=
  { name := "a", content := some [.tag { name := "b", content := some [] }],
    closing := some { name := "a" } }

/-- Another value for the tag around another; and a walk that gives the inner one a value. -/
theorem stays_balanced_nestedTag : (tag nestedTag).Balanced ∧
    ((tag nestedTag).edit (.value "x")).Balanced ∧
      ((walkWith (fun c s => (some (.new (c.edit (.value "x"))), s + 1)) (tag nestedTag) 0).1.of
        (tag nestedTag)).Balanced := by
  have hbalanced : (tag nestedTag).Balanced := by simp [nestedTag, Tag.ClosesByName]
  have hvalue : ∀ t : Tree, t.Balanced → (t.edit (.value "x")).Balanced := fun t ht =>
    (stays_balanced ht).1 (.value "x") nofun nofun
  refine ⟨hbalanced, hvalue _ hbalanced, (stays_balanced hbalanced).2.2.1 _ 0 ?_⟩
  rintro c hc s u hu
  obtain rfl := Update.new.inj (Option.some.inj hu)
  exact hvalue c ((balanced_iff.mp hbalanced).2 c hc)

end Tree

end Lossless.Xml
