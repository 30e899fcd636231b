import Lossless.Interchange.Markers
import Lossless.Padding
import Lossless.Head

/-!
# Padded elements and heads of nodes as data

Readers and writers of padding are given the reader of the element and the writer of
the field that holds it: an element that is a text is left out when it is empty, one
that is a node never is.
-/

namespace Lossless.Interchange

variable {α : Type}

/-- Reads an element with the text after it. -/
def readRight (read : Datum → Reader α) (d : Datum) : Reader (RightPadded α) := do
  return {
    element := ← read (d.field "element")
    after := ← .space (d.field "after")
    markers := ← readMarkers (d.field "markers") }

/-- Writes an element with the text after it. -/
def writeRight (write : String → α → Field) (p : RightPadded α) : Datum :=
  record [write "element" p.element, .space "after" p.after, .markers p.markers]

/-- Reads an element with the text before it. -/
def readLeft (read : Datum → Reader α) (d : Datum) : Reader (LeftPadded α) := do
  return {
    before := ← .space (d.field "before")
    element := ← read (d.field "element")
    markers := ← readMarkers (d.field "markers") }

/-- Writes an element with the text before it. -/
def writeLeft (write : String → α → Field) (p : LeftPadded α) : Datum :=
  record [.space "before" p.before, write "element" p.element, .markers p.markers]

/-- Reads a delimited list; a missing one is empty. -/
def readContainer (read : Datum → Reader α) : Datum → Reader (Container α) :=
  .orElse .empty fun d => do
    return {
      before := ← .space (d.field "before")
      padded := ← .list (readRight read) (d.field "elements")
      markers := ← readMarkers (d.field "markers") }

/-- Writes a delimited list. -/
def writeContainer (write : String → α → Field) (c : Container α) : Datum :=
  record [.space "before" c.before, .list "elements" (c.padded.map (writeRight write)),
    .markers c.markers]

/-- Reads the head of a node and gives the node its identity. -/
def readHead (d : Datum) : Reader Head := do
  return {
    id := ← .fresh
    lead := ← .space (d.field "prefix")
    markers := ← readMarkers (d.field "markers") }

/-- A node of some kind: its head and its own fields. -/
def node (kind : String) (h : Head) (fields : List Field) : Datum :=
  record (.always "k" (.text kind) :: .space "prefix" h.lead :: .markers h.markers :: fields)

end Lossless.Interchange
