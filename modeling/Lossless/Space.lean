/-!
# Literal formatting

A tree stores no positions. In front of every node and around every delimiter it
keeps the text that stood there, blanks and comments alike, and printing puts
these texts back. `Lossless.Space` is such a text.
-/

namespace Lossless

/-- Does `needle` occur in `hay`, as a run of neighbouring characters? -/
def occursIn (needle : List Char) : List Char → Bool
  | [] => needle.isEmpty
  | c :: hay => needle.isPrefixOf (c :: hay) || occursIn needle hay

/-- Blanks and comments, kept letter for letter. -/
structure Space where
  /-- The text itself. -/
  text : String
deriving DecidableEq, Repr

namespace Space

/-- No formatting at all. -/
def empty : Space := ⟨""⟩

/-- One blank, the most common separator. -/
def single : Space := ⟨" "⟩

instance : Inhabited Space := ⟨empty⟩

/-- Is there no text? -/
def isEmpty (s : Space) : Bool := s.text.isEmpty

/-- Does the text hold the start of a comment, in any of the three notations? -/
def hasComment (s : Space) : Bool :=
  ["//", "/*", "<!--"].any fun mark => occursIn mark.toList s.text.toList

end Space

end Lossless
