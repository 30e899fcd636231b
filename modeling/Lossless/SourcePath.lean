import Lossless.Text.Split

/-!
# Paths of source files

Two texts can name one file: repeated slashes, a slash at the end and segments that
stand for the directory they are in make no difference, except at the start of a
relative path. `Lossless.SourcePath.normalize` drops what makes no difference.
-/

namespace Lossless.SourcePath

/-- Does a segment, not the first of its path, stand for no step at all? -/
def isIdle (segment : List Char) : Bool := segment.isEmpty || segment == ['.']

/-- The segments of which some step is left, given those of a relative path. -/
def steps : List (List Char) → List (List Char)
  | [] => []
  | first :: rest => first :: rest.filter (!isIdle ·)

/-- The shortest spelling of a path. -/
def normalize (path : String) : String :=
  String.ofList <|
    match path.toList with
    | '/' :: s => '/' :: Text.joinWith '/' ((Text.splitAt '/' s).filter (!isIdle ·))
    | s => Text.joinWith '/' (steps (Text.splitAt '/' s))

end Lossless.SourcePath
