import Lossless.Xml.Tree
import Lossless.SourcePath

/-!
# Equality of XML trees

As for Java trees: `=` compares everything, identities included, and
`Lossless.Xml.Tree.alike` compares everything else.
-/

namespace Lossless.Xml

/-- A node without its children. What fills a place for one kind of nodes is a child,
and its place is filled by a blank. -/
inductive Frame where
  | document (n : Document Unit)
  | prolog (n : Prolog Unit)
  | xmlDecl (n : XmlDecl)
  | tag (n : Tag Unit)
  | attr (n : Attribute)
  | charData (n : CharData)
  | comment (n : Comment)
deriving DecidableEq

namespace Tree

/-- The attribute of nothing. -/
def blankAttribute : Attribute := { key := "" }

/-- All that a node is beside its children. -/
def frame : Tree → Frame
  | .document n => .document { n with prolog := n.prolog.map fun _ => {}, root := {} }
  | .prolog n =>
    .prolog { n with decl := n.decl.map fun _ => {}, misc := n.misc.map fun _ => () }
  | .xmlDecl n => .xmlDecl { n with attributes := n.attributes.map fun _ => blankAttribute }
  | .tag n =>
    .tag
      { n with
        attributes := n.attributes.map fun _ => blankAttribute
        content := n.content.map (·.map fun _ => ()) }
  | .attr n => .attr n
  | .charData n => .charData n
  | .comment n => .comment n

theorem attributes_inj {as bs : List Attribute}
    (h : as.map Tree.attr = bs.map Tree.attr) : as = bs := by
  have := congrArg (List.filterMap attribute?) h
  simpa [List.filterMap_map, Function.comp_def, attribute?] using this

/-- Trees with the same frame and the same children are equal. -/
theorem ext_frame {a b : Tree} (hf : frame a = frame b) (hc : children a = children b) : a = b := by
  rw [children_eq_inner, children_eq_inner] at hc
  cases a <;> cases b <;> try (simp [frame] at hf; done)
  case document m n =>
    obtain ⟨hd, path, prolog, root, eof⟩ := m
    obtain ⟨hd', path', prolog', root', eof'⟩ := n
    simp [frame, inner] at hf hc
    obtain ⟨rfl, rfl, hp, rfl⟩ := hf
    cases prolog <;> cases prolog' <;> simp_all
  case prolog m n =>
    obtain ⟨hd, decl, misc⟩ := m
    obtain ⟨hd', decl', misc'⟩ := n
    simp [frame, inner] at hf hc
    cases decl <;> cases decl' <;> simp_all
  case xmlDecl m n =>
    obtain ⟨hd, name, attributes, b⟩ := m
    obtain ⟨hd', name', attributes', b'⟩ := n
    simp only [frame, inner, Frame.xmlDecl.injEq, XmlDecl.mk.injEq] at hf hc
    obtain ⟨rfl, rfl, -, rfl⟩ := hf
    rw [attributes_inj hc]
  case tag m n =>
    obtain ⟨hd, name, attributes, content, b, closing⟩ := m
    obtain ⟨hd', name', attributes', content', b', closing'⟩ := n
    simp only [frame, inner, Frame.tag.injEq, Tag.mk.injEq] at hf hc
    obtain ⟨rfl, rfl, ha, hk, rfl, rfl⟩ := hf
    have hl := congrArg List.length ha
    obtain ⟨h1, h2⟩ := List.append_inj hc (by simpa using hl)
    rw [attributes_inj h1]
    cases content <;> cases content' <;> simp_all
  case attr m n => simpa [frame] using hf
  case charData m n => simpa [frame] using hf
  case comment m n => simpa [frame] using hf

instance : DecidableEq Tree := decEqOfFrame frame ext_frame

/-! ### Equality but for identities -/

/-- A node without its identity; its children are left as they are. -/
def bare : Tree → Tree
  | .document n =>
    .document { n with toHead := n.anonymous, sourcePath := SourcePath.normalize n.sourcePath }
  | t => t.withHead t.head.anonymous

/-- A tree without any identities. -/
def anonymous (t : Tree) : Tree :=
  rebuild t.bare ((children t).attach.map fun ⟨c, _⟩ => anonymous c)
termination_by t

/-- Do two trees agree but for identities? -/
def alike (t u : Tree) : Bool := t.anonymous = u.anonymous

end Tree

end Lossless.Xml
