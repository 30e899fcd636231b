import Lossless.Java.ArgumentDeletion
import Lossless.Java.References
import Lossless.Recipe.Basic
import Lossless.Recipe.Options

/-!
# Recipe: delete an argument of method calls

In every call of a method that a pattern accepts, the argument at some position is
deleted, if the call has so many arguments. Calls inside calls come first, so that the
pattern is compared with a call whose own arguments are finished. What the deleted
argument refers to may not need to be imported any more.

Positions are numbers of 64 bits, and to have an argument at a position means to have as many
arguments as its successor. The last of these numbers has no successor.
-/

namespace Lossless

/-- The recipe that deletes an argument. -/
structure DeleteArgument where
  /-- The methods whose calls are meant. -/
  pattern : String
  /-- The position of the argument, counted from zero. -/
  index : UInt64
  /-- What to do with calls without attribution. -/
  fallback : Java.Fallback := .failClosed
deriving DecidableEq, Repr

namespace DeleteArgument

variable {ω : Type}

/-- Deletes the argument of a node that is a call to be changed. At the last of all positions
the sum overflows and every call seems to have enough arguments, so that the removal fails. (Where
sums are checked it is the sum that fails.) -/
def deleteFrom (m : Java.Matcher) (index : UInt64) (t : Java.Tree) :
    ContextM ω (Update Java.Tree) := do
  match t.call? with
  | none => return .same
  | some c =>
    if m.acceptsCall c && (index + 1).toNat ≤ c.realArguments.length then
      match t.withoutArgument? index.toNat with
      | some (updated, removed) =>
        (Java.references removed).forM fun name => modify (·.requestRemoval name)
        return .new updated
      | none => throw (.removal index.toNat c.arguments.padded.length)
    else return .same

/-- Deletes the argument in all calls. -/
def action (m : Java.Matcher) (index : UInt64) (ω : Type := Unit) :
    Java.Visitor (Context ω) (Except Failure) where
  node t walk := do
    let w ← walk
    return some (w.andThen (← VisitM.onState (deleteFrom m index (w.of t))))

/-- The visitor for the calls that a pattern accepts; none if it is no pattern. -/
def visitor (r : DeleteArgument) (ω : Type := Unit) : SourceVisitor ω :=
  match Java.MethodPattern.parse r.pattern with
  | .error _ => .noop
  | .ok pattern =>
    let m : Java.Matcher := { pattern, fallback := r.fallback }
    .check (.test (.usesMethod m ω)) (Capabilities.visitor { java := some (action m r.index ω) })

/-- Its options. -/
def options (r : DeleteArgument) : List OptionDescriptor :=
  [{ name := "methodPattern"
     displayName := "Method pattern"
     description := "A method pattern that is used to find matching method invocations."
     sample := some "com.yourorg.A foo(int, int)"
     value := .text r.pattern },
   { name := "argumentIndex"
     displayName := "Argument index"
     description := "A zero-based index that indicates which argument will be removed from the " ++
       "method invocation."
     sample := some "0"
     value := .nat r.index.toNat },
   { name := "fallback"
     displayName := "Unattributed calls"
     description := "How calls without type attribution are matched."
     value := .text r.fallback.word
     required := false }]

/-- What it is and does. -/
def procedure (r : DeleteArgument) (ω : Type := Unit) : Procedure ω :=
  let name := "java.DeleteMethodArgument"
  { name
    displayName := "Delete method argument"
    description := "Delete an argument from method invocations."
    instanceName :=
      "Delete method argument " ++ toString r.index ++ " in methods `" ++ r.pattern ++ "`"
    options := r.options
    faults := missingOptions name r.options ++ patternFaults name "methodPattern" r.pattern
    visitor := r.visitor ω }

/-- The recipe. -/
def recipe (r : DeleteArgument) (ω : Type := Unit) : Recipe ω := .mk (r.procedure ω) []

/-- Its options as data. -/
def toDatum (r : DeleteArgument) : Datum :=
  .record [("methodPattern", .text r.pattern), ("argumentIndex", .nat r.index.toNat),
    ("fallback", .text r.fallback.word)]

/-- The recipe with these options. -/
def ofDatum? (d : Datum) : Option DeleteArgument := do
  match ← Options.fields? ["methodPattern", "argumentIndex", "fallback"] d with
  | [some pattern, some index, fallback] =>
    return {
      pattern := ← Options.text? pattern
      index := ← Options.index? index
      fallback := ← Options.orDefault .failClosed (Options.choice? Java.Fallback.words) fallback }
  | _ => none

end DeleteArgument

end Lossless
