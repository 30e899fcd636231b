import Lossless.Xml.Tag

/-!
# Edits of a single field

As for Java trees: setting a field to a value that is alike the one it has changes
nothing at all, and otherwise the new node keeps the identity of the old one.
-/

namespace Lossless.Xml

/-- A field and its new value, or one of the edits that only tags know. -/
inductive Edit where
  | lead (value : Space)
  | markers (value : Markers)
  | prolog (value : Option (Prolog Tree))
  | root (value : Tag Tree)
  | eof (value : Space)
  | decl (value : Option XmlDecl)
  | misc (value : List Tree)
  | name (value : String)
  | attributes (value : List Attribute)
  | content (value : Option (List Tree))
  | text (value : String)
  | attributeValue (value : AttributeValue)
  /-- Gives a tag another value. -/
  | value (value : String)
  /-- Replaces a child of a tag. -/
  | child (old new : Tag Tree)

namespace Tree

/-- The node after an edit, equal values included. -/
def set (t : Tree) : Edit → Tree
  | .lead s => t.withLead s
  | .markers m => t.withMarkers m
  | .prolog p => match t with
    | .document n => .document { n with prolog := p }
    | _ => t
  | .root root => match t with
    | .document n => .document { n with root }
    | _ => t
  | .eof eof => match t with
    | .document n => .document { n with eof }
    | _ => t
  | .decl decl => match t with
    | .prolog n => .prolog { n with decl }
    | _ => t
  | .misc misc => match t with
    | .prolog n => .prolog { n with misc }
    | _ => t
  | .name name => match t with
    | .tag n => .tag { n with name }
    | _ => t
  | .attributes attributes => match t with
    | .tag n => .tag { n with attributes }
    | _ => t
  | .content content => match t with
    | .tag n => .tag { n with content }
    | _ => t
  | .text text => match t with
    | .charData n => .charData { n with text }
    | _ => t
  | .attributeValue value => match t with
    | .attr n => .attr { n with value }
    | _ => t
  | .value value => match t with
    | .tag n => .tag (n.withValue value)
    | _ => t
  | .child old new => match t with
    | .tag n => .tag (n.replaceChild old new)
    | _ => t

/-- The node after an edit: the node itself if the new value is alike the old one. -/
def edit (t : Tree) (e : Edit) : Tree := if (t.set e).alike t then t else t.set e

end Tree

/-- The document after an edit. -/
def Document.edit (n : Document Tree) (e : Edit) : Document Tree :=
  ((Tree.document n).edit e).document?.getD n

end Lossless.Xml
