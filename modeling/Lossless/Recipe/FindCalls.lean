import Lossless.Recipe.Basic
import Lossless.Recipe.Options

/-!
# Recipe: find method calls

Every call of a method that a pattern accepts is marked as found, once. Nothing else
changes, and markers are not printed.
-/

namespace Lossless

/-- The recipe that marks calls. -/
structure FindCalls where
  /-- The methods whose calls are meant. -/
  pattern : String
  /-- What to do with calls without attribution. -/
  fallback : Java.Fallback := .failClosed
deriving DecidableEq, Repr

namespace FindCalls

/-- Marks a node that is a call to be found and was not found before. -/
def mark (m : Java.Matcher) (t : Java.Tree) : Update Java.Tree :=
  if t.call?.any m.acceptsCall && !t.markers.contains .searchResult then
    .new (t.withMarkers (t.markers.add (.searchResult none)))
  else .same

/-- Marks all calls. -/
def action (m : Java.Matcher) (ω : Type := Unit) : Java.Visitor (Context ω) (Except Failure) where
  node t walk := do
    let w ← walk
    return some (w.andThen (mark m (w.of t)))

/-- The visitor for the calls that a pattern accepts; none if it is no pattern. -/
def visitor (r : FindCalls) (ω : Type := Unit) : SourceVisitor ω :=
  match Java.MethodPattern.parse r.pattern with
  | .error _ => .noop
  | .ok pattern =>
    let m : Java.Matcher := { pattern, fallback := r.fallback }
    .check (.test (.usesMethod m ω)) (Capabilities.visitor { java := some (action m ω) })

/-- Its options. -/
def options (r : FindCalls) : List OptionDescriptor :=
  [{ name := "methodPattern"
     displayName := "Method pattern"
     description := "A method pattern that is used to find matching method invocations."
     sample := some "java.util.List add(..)"
     value := .text r.pattern },
   { name := "fallback"
     displayName := "Unattributed calls"
     description := "How calls without type attribution are matched."
     value := .text r.fallback.word
     required := false }]

/-- What it is and does. -/
def procedure (r : FindCalls) (ω : Type := Unit) : Procedure ω :=
  let name := "search.FindMethods"
  { name
    displayName := "Find method usages"
    description := "Find method calls by pattern."
    instanceName := "Find method usages `" ++ r.pattern ++ "`"
    options := r.options
    faults := missingOptions name r.options ++ patternFaults name "methodPattern" r.pattern
    visitor := r.visitor ω }

/-- The recipe. -/
def recipe (r : FindCalls) (ω : Type := Unit) : Recipe ω := .mk (r.procedure ω) []

/-- Its options as data. -/
def toDatum (r : FindCalls) : Datum :=
  .record [("methodPattern", .text r.pattern), ("fallback", .text r.fallback.word)]

/-- The recipe with these options. -/
def ofDatum? (d : Datum) : Option FindCalls := do
  match ← Options.fields? ["methodPattern", "fallback"] d with
  | [some pattern, fallback] =>
    return {
      pattern := ← Options.text? pattern
      fallback := ← Options.orDefault .failClosed (Options.choice? Java.Fallback.words) fallback }
  | _ => none

end FindCalls

end Lossless
