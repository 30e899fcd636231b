import Lossless.TreeId
import Lossless.Space
import Lossless.Marker

/-!
# What every node carries

Whatever its kind and language, a node has an identity, the text that stands in
front of it and its markers. Kinds of nodes extend `Lossless.Head`.
-/

namespace Lossless

/-- The part that all nodes have in common. -/
structure Head where
  /-- Which node it is. -/
  id : TreeId := .created
  /-- The text in front of the node. -/
  lead : Space := .empty
  /-- What is known about the node beside its syntax. -/
  markers : Markers := .empty
deriving DecidableEq, Repr, Inhabited

/-- The same text and markers under no identity in particular. -/
def Head.anonymous (h : Head) : Head := { h with id := .created }

end Lossless
