import Lossless.Interchange.Recipes
import Lossless.Sample.CallSite

/-!
# Call sites as data
-/

namespace Lossless.Interchange

open Sample

/-- The words for the classes whose methods are called. -/
def receivers : List (String × Receiver) :=
  [("Foo", .foo), ("SubFoo", .subFoo), ("Other", .other)]

mutual

/-- Reads an argument that is nested less deeply than some number. -/
def readArgumentTo : Nat → Datum → Reader Argument
  | 0, _ => .expected "argument"
  | n + 1, d => do
    match d with
    | .record [("int", value)] => return .int (← .nat value)
    | .record [("str", content)] => return .text (← .text content)
    | .record [("local", .list [name, className])] =>
      return .localVariable (← .text name) (← .text className)
    | .record [("const", name)] => return .constant (← .text name)
    | .record [("call", site)] => return .call (← readCallSiteTo n site)
    | _ => .expected "argument"

/-- Reads a call whose arguments are nested less deeply than some number. -/
def readCallSiteTo (n : Nat) (d : Datum) : Reader CallSite := do
  let placed (p : Datum) : Reader PlacedArgument := do
    return { lead := ← .textOr (p.element 0), argument := ← readArgumentTo n (p.element 1) }
  return {
    receiver := ← .word "receiver" receivers (d.field "receiver")
    name := ← .optional .text (d.field "name")
    arguments := ← .list placed (d.field "arguments") }

end

/-- Reads a call. -/
def readCallSite (d : Datum) : Reader CallSite := readCallSiteTo d.depth d

/-- The file of a call and what becomes of it when an argument is deleted: what is
expected, and what the recipe leaves. -/
def writeDeletion (c : CallSite) (index : UInt64) : Reader Datum := do
  let expected := c.withoutArgument index.toNat
  let recipe : DeleteArgument := { pattern := c.pattern, index }
  let run : RecipeRun := { recipe := recipe.recipe, config := .sequential }
  match run.run [.java c.unit] {} with
  | .error e => .refuse (writeFailure e)
  | .ok (.error e, _) => .refuse (writeRunError e)
  | .ok (.ok result, _) =>
    let texts := result.results.map fun r => (r.after.map (·.source.text)).getD ""
    return .record [("expected", .text expected.source), ("unit", .text expected.unitSource),
      ("text", .text (String.join texts)), ("changed", .bool (!result.changed.isEmpty)),
      ("imports", .texts (result.results.flatMap (·.importRequests)))]

end Lossless.Interchange
