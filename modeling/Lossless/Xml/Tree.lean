import Lossless.Tree
import Lossless.Head
import Lossless.Answers

/-!
# Trees of XML documents

Seven kinds of nodes. As in `Lossless.Java.Tree`, each kind leaves open what its
children are, `Lossless.Xml.Tree` ties the kinds together, and
`Lossless.Xml.Tree.pieces` prints a node down to its children.

A tag without content closes itself, as in `<br/>`; one whose content is there but
empty has a closing tag, as in `<p></p>`.
-/

namespace Lossless.Xml

/-! ### Kinds of nodes -/

/-- The quotes around the value of an attribute. -/
inductive Quote where
  | double
  | single
deriving DecidableEq, Repr

/-- How a quote is written. -/
def Quote.symbol : Quote → String
  | .double => "\""
  | .single => "'"

/-- The value of an attribute. -/
structure AttributeValue where
  /-- The text before the opening quote. -/
  before : Space := .empty
  /-- The quotes. -/
  quote : Quote := .double
  /-- What stands between them, as written. -/
  value : String := ""
deriving DecidableEq

/-- `key = "value"` -/
structure Attribute extends Head where
  /-- The name of the attribute. -/
  key : String
  /-- The text before `=`. -/
  beforeEquals : Space := .empty
  /-- Its value. -/
  value : AttributeValue := {}
deriving DecidableEq

/-- The text between tags. -/
structure CharData extends Head where
  /-- Is the text written as a section of its own, without any escapes? -/
  cdata : Bool := false
  /-- The text. -/
  text : String := ""
  /-- The text after it that is formatting only. -/
  afterText : Space := .empty
deriving DecidableEq

/-- A comment. -/
structure Comment extends Head where
  /-- The text between the delimiters of the comment. -/
  text : String := ""
deriving DecidableEq

/-- The declaration at the start of a document. -/
structure XmlDecl extends Head where
  /-- Its name. -/
  name : String := ""
  /-- Its attributes. -/
  attributes : List Attribute := []
  /-- The text before the end of the declaration. -/
  beforeClose : Space := .empty
deriving DecidableEq

/-- The closing half of a tag. -/
structure Closing where
  /-- The text in front of it. -/
  lead : Space := .empty
  /-- The name in it. -/
  name : String := ""
  /-- The text after the name. -/
  beforeClose : Space := .empty
deriving DecidableEq

/-- A tag with its content. -/
structure Tag (α : Type) extends Head where
  /-- Its name. -/
  name : String := ""
  /-- Its attributes. -/
  attributes : List Attribute := []
  /-- What stands between the opening and the closing half; a tag that closes itself
  has no content. -/
  content : Option (List α) := none
  /-- The text before the end of the opening half. -/
  beforeClose : Space := .empty
  /-- The closing half. -/
  closing : Option Closing := none
deriving DecidableEq

/-- What stands before the root of a document: its declaration and comments. -/
structure Prolog (α : Type) extends Head where
  /-- The declaration. -/
  decl : Option XmlDecl := none
  /-- The comments. -/
  misc : List α := []
deriving DecidableEq

/-- A whole document. -/
structure Document (α : Type) extends Head where
  /-- Where the file is. -/
  sourcePath : String := ""
  /-- What stands before the root. -/
  prolog : Option (Prolog α) := none
  /-- The root. -/
  root : Tag α
  /-- The text at the end of the file. -/
  eof : Space := .empty
deriving DecidableEq

/-! ### Trees -/

/-- A tree: a node of one of the kinds whose children are trees. -/
inductive Tree where
  | document (n : Document Tree)
  | prolog (n : Prolog Tree)
  | xmlDecl (n : XmlDecl)
  | tag (n : Tag Tree)
  | attr (n : Attribute)
  | charData (n : CharData)
  | comment (n : Comment)

/-- The kinds of nodes. -/
inductive Kind where
  | document
  | prolog
  | xmlDecl
  | tag
  | attr
  | charData
  | comment
deriving DecidableEq, Repr

/-- The name of a kind. -/
def Kind.name : Kind → String
  | .document => "Document"
  | .prolog => "Prolog"
  | .xmlDecl => "XmlDecl"
  | .tag => "Tag"
  | .attr => "Attribute"
  | .charData => "CharData"
  | .comment => "Comment"

namespace Tree

/-- The kind of a node. -/
def kind : Tree → Kind
  | .document _ => .document
  | .prolog _ => .prolog
  | .xmlDecl _ => .xmlDecl
  | .tag _ => .tag
  | .attr _ => .attr
  | .charData _ => .charData
  | .comment _ => .comment

/-- Identity, leading text and markers of a node. -/
def head : Tree → Head
  | .document n => n.toHead
  | .prolog n => n.toHead
  | .xmlDecl n => n.toHead
  | .tag n => n.toHead
  | .attr n => n.toHead
  | .charData n => n.toHead
  | .comment n => n.toHead

/-- The node under another head. -/
def withHead (h : Head) : Tree → Tree
  | .document n => .document { n with toHead := h }
  | .prolog n => .prolog { n with toHead := h }
  | .xmlDecl n => .xmlDecl { n with toHead := h }
  | .tag n => .tag { n with toHead := h }
  | .attr n => .attr { n with toHead := h }
  | .charData n => .charData { n with toHead := h }
  | .comment n => .comment { n with toHead := h }

/-- The identity of a node. -/
def id (t : Tree) : TreeId := t.head.id

/-- The text in front of a node. -/
def lead (t : Tree) : Space := t.head.lead

/-- The markers of a node. -/
def markers (t : Tree) : Markers := t.head.markers

/-- The node behind another text. -/
def withLead (lead : Space) (t : Tree) : Tree := t.withHead { t.head with lead }

/-- The node with other markers. -/
def withMarkers (markers : Markers) (t : Tree) : Tree := t.withHead { t.head with markers }

/-! ### Nodes of a known kind -/

/-- The document that a node is. -/
def document? : Tree → Option (Document Tree)
  | .document n => some n
  | _ => none

/-- The prolog that a node is. -/
def prolog? : Tree → Option (Prolog Tree)
  | .prolog n => some n
  | _ => none

/-- The declaration that a node is. -/
def xmlDecl? : Tree → Option XmlDecl
  | .xmlDecl n => some n
  | _ => none

/-- The tag that a node is. -/
def tag? : Tree → Option (Tag Tree)
  | .tag n => some n
  | _ => none

/-- The attribute that a node is. -/
def attribute? : Tree → Option Attribute
  | .attr n => some n
  | _ => none

/-- The text that a node is. -/
def charData? : Tree → Option CharData
  | .charData n => some n
  | _ => none

/-! ### Printing -/

/-- Some attributes, one after the other. -/
def attributePieces (as : List Attribute) : List (Piece Tree) :=
  as.map fun a => .child (.attr a)

/-- The closing half of a tag. Where none is stored, it is written without any
formatting. -/
def closingPieces (name : String) : Option Closing → List (Piece Tree)
  | some c =>
    [.text c.lead.text, .text "</", .text c.name, .text c.beforeClose.text, .text ">"]
  | none => [.text "</", .text name, .text ">"]

/-- The content of a tag and what encloses it. -/
def contentPieces (n : Tag Tree) : List (Piece Tree) :=
  match n.content with
  | none => [.text "/>"]
  | some content => .text ">" :: (content.map .child ++ closingPieces n.name n.closing)

/-- What a node is printed as after the text in front of it. -/
def body : Tree → List (Piece Tree)
  | .document n =>
    n.prolog.toList.map (fun p => .child (.prolog p)) ++
      [.child (.tag n.root), .text n.eof.text]
  | .prolog n => n.decl.toList.map (fun d => .child (.xmlDecl d)) ++ n.misc.map .child
  | .xmlDecl n =>
    [.text "<?", .text n.name] ++ attributePieces n.attributes ++
      [.text n.beforeClose.text, .text "?>"]
  | .tag n =>
    [.text "<", .text n.name] ++ attributePieces n.attributes ++
      [.text n.beforeClose.text] ++ contentPieces n
  | .attr n =>
    [.text n.key, .text n.beforeEquals.text, .text "=", .text n.value.before.text,
      .text n.value.quote.symbol, .text n.value.value, .text n.value.quote.symbol]
  | .charData n =>
    if n.cdata then [.text "<![CDATA[", .text n.text, .text "]]>", .text n.afterText.text]
    else [.text n.text, .text n.afterText.text]
  | .comment n => [.text "<!--", .text n.text, .text "-->"]

/-- What a node is printed as. -/
def pieces (t : Tree) : List (Piece Tree) := .text t.lead.text :: t.body

/-! ### Updating -/

/-- Reads the answers for the children of a node. -/
def answered : Tree → Answers Tree Tree
  | .document n => do
    let prolog ← .optional (Answers.plainFixed prolog?) n.prolog
    let root ← .fixed tag? n.root
    return .document { n with prolog, root }
  | .prolog n => do
    let decl ← .optional (Answers.plainFixed xmlDecl?) n.decl
    let misc ← .list Answers.plain n.misc
    return .prolog { n with decl, misc }
  | .xmlDecl n =>
    return .xmlDecl { n with attributes := ← .list (Answers.plainFixed attribute?) n.attributes }
  | .tag n => do
    let attributes ← .list (Answers.plainFixed attribute?) n.attributes
    match n.content with
    | none => return .tag { n with attributes }
    | some content =>
      return .tag { n with attributes, content := some (← .list Answers.plain content) }
  | .attr n => return .attr n
  | .charData n => return .charData n
  | .comment n => return .comment n

/-- What becomes of a node, given what becomes of its children. -/
def update (t : Tree) (answers : List (Option (Update Tree))) : Update Tree :=
  t.answered.result answers

/-! ### The children of each kind -/

@[simp]
theorem childrenOf_closing (name : String) (c : Option Closing) :
    childrenOf (closingPieces name c) = [] := by
  cases c <;> simp [closingPieces]

@[simp]
theorem childrenOf_content (n : Tag Tree) :
    childrenOf (contentPieces n) = n.content.getD [] := by
  unfold contentPieces; split <;> simp_all

/-- The nodes directly below a node. -/
def inner : Tree → List Tree
  | .document n => n.prolog.toList.map .prolog ++ [.tag n.root]
  | .prolog n => n.decl.toList.map .xmlDecl ++ n.misc
  | .xmlDecl n => n.attributes.map .attr
  | .tag n => n.attributes.map .attr ++ n.content.getD []
  | .attr _ | .charData _ | .comment _ => []

/-- The children in the printed pieces of a node are the ones its fields list. -/
theorem childrenOf_pieces (t : Tree) : childrenOf (pieces t) = inner t := by
  cases t <;> simp [pieces, body, inner, attributePieces]
  split <;> simp

/-- A child is smaller than the node. -/
theorem sizeOf_lt_of_mem_inner {t c : Tree} (h : c ∈ inner t) : sizeOf c < sizeOf t := by
  cases t with
  | document n =>
    obtain ⟨hd, path, prolog, root, eof⟩ := n
    simp [inner] at h
    rcases h with ⟨p, rfl, rfl⟩ | rfl <;> simp <;> omega
  | prolog n =>
    obtain ⟨hd, decl, misc⟩ := n
    simp [inner] at h
    rcases h with ⟨p, rfl, rfl⟩ | h
    · simp; omega
    · have := List.sizeOf_lt_of_mem h; simp; omega
  | xmlDecl n =>
    obtain ⟨hd, name, attributes, b⟩ := n
    simp [inner] at h
    obtain ⟨a, h, rfl⟩ := h
    have := List.sizeOf_lt_of_mem h; simp; omega
  | tag n =>
    obtain ⟨hd, name, attributes, content, b, closing⟩ := n
    simp [inner] at h
    rcases h with ⟨a, h, rfl⟩ | h
    · have := List.sizeOf_lt_of_mem h; simp; omega
    · cases content with
      | none => simp at h
      | some content =>
        have := List.sizeOf_lt_of_mem h
        simp at this ⊢; omega
  | attr n => simp [inner] at h
  | charData n => simp [inner] at h
  | comment n => simp [inner] at h

/-! ### Trees of this language are lossless trees -/

theorem sizeOf_lt_of_mem_pieces {t c : Tree} (h : .child c ∈ pieces t) : sizeOf c < sizeOf t :=
  sizeOf_lt_of_mem_inner (childrenOf_pieces t ▸ mem_childrenOf.mpr h)

instance : Node Tree where
  pieces := pieces
  update := update
  wellFounded := Subrelation.wf sizeOf_lt_of_mem_pieces (measure sizeOf).wf

theorem children_eq_inner (t : Tree) : children t = inner t := childrenOf_pieces t

end Tree

end Lossless.Xml
