import Lossless.Xml.Equality
import Lossless.Cursor

/-!
# Working with tags

Tags by name, the text that a tag encloses, and where a traversal stands in terms of
the tags around it. A tag whose content is one text has that text as its value, and one
with empty content has the empty value; a tag that closes itself, or that encloses
anything else, has none.
-/

namespace Lossless.Xml

namespace Tag

/-- The tags directly inside a tag, in order. -/
def childTags (n : Tag Tree) : List (Tag Tree) := (n.content.getD []).filterMap Tree.tag?

/-- The first tag inside a tag that has this name. -/
def child? (n : Tag Tree) (name : String) : Option (Tag Tree) :=
  n.childTags.find? (·.name = name)

/-- The tags inside a tag that have this name. -/
def childrenNamed (n : Tag Tree) (name : String) : List (Tag Tree) :=
  n.childTags.filter (·.name = name)

/-- The text that a tag encloses. -/
def value? (n : Tag Tree) : Option String :=
  match n.content with
  | some [] => some ""
  | some [.charData c] => some c.text
  | _ => none

/-- The value of the tag that a path of names leads to, each time to the first tag of
the name. -/
def childValue? (n : Tag Tree) : List String → Option String
  | [] => none
  | [name] => (n.child? name).bind value?
  | name :: rest => (n.child? name).bind fun c => c.childValue? rest

/-- The value of an attribute, as written. -/
def attributeValue? (n : Tag Tree) (key : String) : Option String :=
  (n.attributes.find? (·.key = key)).map (·.value.value)

/-- The text node that is to hold a new value: the one that holds the value now, or a
new one without formatting. -/
def textFor (n : Tag Tree) (value : String) : CharData :=
  match n.content with
  | some [.charData c] => { c with text := value }
  | _ => { text := value }

/-- The tag with another value. If it has the value already it stays as it is, else
its content becomes one text; a tag that closed itself gains a closing half. -/
def withValue (n : Tag Tree) (value : String) : Tag Tree :=
  if n.value? = some value then n
  else
    { n with
      content := some [.charData (n.textFor value)]
      closing := some (n.closing.getD { name := n.name }) }

/-- The tag with each child that is `old` replaced by `new`. -/
def replaceChild (n : Tag Tree) (old new : Tag Tree) : Tag Tree :=
  { n with content := n.content.map (·.map fun c => if c = .tag old then .tag new else c) }

end Tag

/-! ### Paths of tags -/

/-- The names of the tags around the current node, its own included, from the root
down. -/
def tagPath (c : Cursor Tree) : List String :=
  (c.path.filterMap fun t => t.tag?.map (·.name)).reverse

/-- The nearest tag of this name, the current one included. -/
def enclosingTag? (c : Cursor Tree) (name : String) : Option (Tag Tree) :=
  (c.path.filterMap Tree.tag?).find? (·.name = name)

end Lossless.Xml
