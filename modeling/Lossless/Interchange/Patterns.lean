import Lossless.Interchange.Reader
import Lossless.Interchange.Writer
import Lossless.Java.Matcher

/-!
# Patterns as data

A pattern is given by its text. One that cannot be read is refused with a report, which
holds the word for the error and its text.
-/

namespace Lossless.Interchange

open Java

/-- The report of an error: its word and its text. -/
def report (word message : String) : Datum :=
  .record [("error", .text word), ("message", .text message)]

/-- The word for an error in a pattern. -/
def patternErrorWord : PatternError → String
  | .empty => "Empty"
  | .malformed _ => "Malformed"
  | .invalidType _ => "InvalidType"
  | .invalidName _ => "InvalidName"
  | .invalidParameter _ => "InvalidParameter"
  | .misplacedWildcard _ => "MisplacedWildcard"

/-- Writes an error in a pattern. -/
def writePatternError (e : PatternError) : Datum := report (patternErrorWord e) e.message

/-- Writes the parts of a pattern. -/
def writeParts (p : PatternParts) : Datum :=
  let text (s : List Char) : Datum := .text (String.ofList s)
  .record [("type_pattern", text p.type), ("method_name", text p.name),
    ("parameters", .list (p.parameters.map text))]

/-- Writes all that is wrong with a pattern, or its parts if nothing is. -/
def writeCheck : Validated PatternError MethodPattern → Datum
  | .good p => .record [("components", writeParts p.parts)]
  | .bad e es => .record [("errors", .list ((e :: es).map writePatternError))]

/-- Reads a way to fall back. -/
def readFallback : Datum → Reader Fallback :=
  .orElse .failClosed (.word "fallback" Fallback.words)

/-- Writes a way to fall back. -/
def writeFallback (f : Fallback) : Datum := .text f.word

/-- Writes a matcher. -/
def writeMatcher (m : Matcher) : Datum :=
  .record [("pattern", .text m.pattern.text), ("components", writeParts m.pattern.parts),
    ("overrides", .bool m.overrides), ("fallback", writeFallback m.fallback)]

/-- Reads a matcher from a record, which may have other fields. -/
def readMatcher (d : Datum) : Reader Matcher := do
  match MethodPattern.parse (← .text (d.field "pattern")) with
  | .error e => .refuse (writePatternError e)
  | .ok pattern => return {
      pattern
      overrides := ← .orElse true .bool (d.field "overrides")
      fallback := ← readFallback (d.field "fallback") }

end Lossless.Interchange
