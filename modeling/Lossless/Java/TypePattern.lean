import Lossless.Java.Type
import Lossless.Text.Glob
import Lossless.Text.Split
import Lossless.Text.WordChar

/-!
# Patterns of types

A pattern of types is compared with the signatures of types. It consists of the
segments of a dotted name, in which stars stand for parts of a segment, and of array
dimensions. Between two segments there may be two dots instead of one: then any number
of further segments may stand between them. So `com..Foo` matches `com.Foo` and
`com.acme.util.Foo`, and `*Map[]` matches arrays of maps that are in no package.

Three things are special. The patterns `*` and `*..*` match whatever fits on a line. A name
that is a single segment without stars, and no keyword of a primitive type, also matches
the class of that name in the package `java.lang`. And nesting is spelled with a dot or a
`$`, which makes no difference.
-/

namespace Lossless.Java

/-- A step along the segments of a name. -/
inductive PathStep where
  /-- One segment, of a form given by a glob. -/
  | segment (glob : List Char)
  /-- Any number of segments, none of them empty. -/
  | skip
deriving DecidableEq, Repr

namespace PathStep

/-- The steps between dots: an empty segment says that segments may be skipped. There has
to be a segment on either side of it. -/
def ofSegments? : List (List Char) → Option (List PathStep)
  | [] => none
  | [] :: _ => none
  | [glob] => some [.segment glob]
  | glob :: [] :: rest => (ofSegments? rest).map (.segment glob :: .skip :: ·)
  | glob :: rest => (ofSegments? rest).map (.segment glob :: ·)

/-- The step along a list of segments. -/
def step : PathStep → Text.Step (List Char)
  | .segment glob => .one (Text.globMatches (fun _ => true) glob)
  | .skip => .run (!·.isEmpty)

/-- Do these segments follow these steps? -/
def matchSegments (path : List PathStep) (segments : List (List Char)) : Bool :=
  Text.Step.follows (path.map step) segments

end PathStep

/-- A pattern of types. -/
inductive TypePattern where
  /-- Everything that fits on a line. -/
  | any
  /-- Arrays of some dimensions of the types whose names follow a path, perhaps only
  after `java.lang`. -/
  | named (path : List PathStep) (orInLang : Bool) (dimensions : Nat)
deriving DecidableEq, Repr

namespace TypePattern

/-- The keywords of primitive types. -/
def primitiveKeywords : List String :=
  ["boolean", "byte", "char", "double", "float", "int", "long", "short", "void"]

/-- A text that is read backwards, without the array dimensions at its end, and how many
there are. -/
def dropDimensions : List Char → List Char × Nat
  | ']' :: '[' :: s => ((dropDimensions s).1, (dropDimensions s).2 + 1)
  | s => (s, 0)

/-- A text that is read backwards without some array dimensions at its end, if it has so
many. -/
def dropDimensions? : Nat → List Char → Option (List Char)
  | 0, s => some s
  | n + 1, ']' :: '[' :: s => dropDimensions? n s
  | _ + 1, _ => none

/-- Is this a character of which the names in patterns are made? -/
def isPathChar (c : Char) : Bool := Text.isWordChar c || c = '.' || c = '*'

/-- Is this a name that also stands for a class of `java.lang`? -/
def isUnqualified (name : List Char) : Bool :=
  name.all (fun c => c ≠ '.' && c ≠ '*') && String.ofList name ∉ primitiveKeywords

/-- Reads a pattern. -/
def parse? (text : List Char) : Option TypePattern :=
  if text = ['*'] ∨ text = ['*', '.', '.', '*'] then some .any
  else
    let (reversed, dimensions) := dropDimensions (QualifiedName.dotted text).reverse
    let name := reversed.reverse
    if name.all isPathChar then
      (PathStep.ofSegments? (Text.splitAt '.' name)).map fun path =>
        .named path (isUnqualified name) dimensions
    else none

/-- Does a dotted name, given by its segments, match a path, perhaps after `java.lang`? -/
def matchName (path : List PathStep) (orInLang : Bool) (segments : List (List Char)) : Bool :=
  PathStep.matchSegments path segments ||
    orInLang && segments.take 2 == [['j', 'a', 'v', 'a'], ['l', 'a', 'n', 'g']] &&
      PathStep.matchSegments path (segments.drop 2)

/-- Does a signature match a pattern? -/
def accepts (p : TypePattern) (signature : List Char) : Bool :=
  match p with
  | .any => signature.all (· ≠ '\n')
  | .named path orInLang dimensions =>
    match dropDimensions? dimensions signature.reverse with
    | some reversed => matchName path orInLang (Text.splitAt '.' reversed.reverse)
    | none => false

end TypePattern

end Lossless.Java
