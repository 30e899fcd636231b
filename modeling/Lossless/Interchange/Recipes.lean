import Lossless.Interchange.Sources
import Lossless.Recipe.ChangeProperty
import Lossless.Recipe.DeleteArgument
import Lossless.Recipe.FindCalls
import Lossless.Recipe.Run
import Lossless.Text.UpperCase

/-!
# Recipes as data

A recipe is given by the word for its type with its options, or step by step. Options that
do not fit their recipe are refused. There is a recipe that does nothing, and one that does
whatever its parts say: a visitor, perhaps only where a precondition applies, some options, and
recipes that come after it.
-/

namespace Lossless.Interchange

/-! ### What recipes say about themselves -/

/-- Writes a problem with an option. -/
def writeValidationError (e : ValidationError) : Datum :=
  .record [("recipe", .text e.recipe), ("option", .text e.option), ("message", .text e.message),
    ("text", .text e.text)]

/-- Writes problems with options. -/
def writeFaults (es : List ValidationError) : Datum := .list (es.map writeValidationError)

/-- Writes an option. -/
def writeOption (o : OptionDescriptor) : Datum :=
  record [.always "name" (.text o.name), .always "displayName" (.text o.displayName),
    .always "description" (.text o.description), .optional "example" (o.sample.map .text),
    .always "value" o.value, .always "required" (.bool o.required)]

mutual

/-- Writes the description of a recipe. -/
def writeDescriptor : RecipeDescriptor → Datum
  | .mk name displayName description options list =>
    .record [("name", .text name), ("displayName", .text displayName),
      ("description", .text description), ("options", .list (options.map writeOption)),
      ("recipeList", .list (writeDescriptors list))]

/-- Writes the descriptions of some recipes. -/
def writeDescriptors : List RecipeDescriptor → List Datum
  | [] => []
  | d :: ds => writeDescriptor d :: writeDescriptors ds

end

/-- Writes the names of recipes together with their options. -/
def instanceNames (rs : List (Recipe Notes)) : Datum := .texts (rs.map (·.procedure.instanceName))

/-! ### Errors -/

/-- The report that options do not fit. -/
def optionsReport : Datum := .record [("error", .text "Options")]

/-- What options make, unless they do not fit. -/
def orOptions {α : Type} : Option α → Reader α
  | some a => return a
  | none => .refuse optionsReport

/-- Writes why there is no result. -/
def writeRunError (e : RunError) : Datum :=
  let message := ("message", Datum.text e.message)
  match e with
  | .validation errors =>
    .record [("error", .text "Validation"), message, ("errors", writeFaults errors)]
  | .cancelled => .record [("error", .text "Cancelled"), message]
  | .cycle id => .record [("error", .text "Cycle"), message, ("id", .text id)]

/-! ### Recipes made to measure -/

/-- The recipe that does nothing. -/
def bareRecipe : Recipe Notes :=
  .mk { name := "test.Bare", displayName := "Bare", description := "Nothing." } []

/-- A recipe in parts. -/
structure ScriptedRecipe where
  /-- Its name for readers. -/
  displayName : String
  /-- Its options. -/
  options : List OptionDescriptor
  /-- The files that it is for. -/
  scan : Option (Precondition Notes)
  /-- What it does to them. -/
  visitor : SourceVisitor Notes
  /-- The recipes that come after it. -/
  list : List (Recipe Notes)

namespace ScriptedRecipe

/-- An option, which is shown in capitals. -/
def option (name : String) (value : Datum) (sample : Option String) (isOptional : Bool) :
    OptionDescriptor where
  name := name
  displayName := Text.upperCase name
  description := ""
  sample := sample
  value := value
  required := !isOptional

/-- The recipe that the parts make up. -/
def recipe (r : ScriptedRecipe) : Recipe Notes :=
  .mk
    { name := "test.Scripted"
      displayName := r.displayName
      description := "Scripted."
      options := r.options
      visitor := match r.scan with
        | some scan => .check scan r.visitor
        | none => r.visitor }
    r.list

end ScriptedRecipe

/-! ### Recipes -/

/-- Reads a position in a list. -/
def readIndex (d : Datum) : Reader UInt64 :=
  match Options.index? d with
  | some index => return index
  | none => .expected "index"

/-- Reads an option of a recipe in parts. -/
def readOption (d : Datum) : Reader OptionDescriptor := do
  return ScriptedRecipe.option (← .text (d.field "name")) (d.field "value")
    (← .optional .text (d.field "example")) (← .boolOr (d.field "optional"))

/-- Reads a recipe in parts, given how the recipes in it are read. -/
def readScriptedWith (readRecipe : Datum → Reader (Recipe Notes)) (d : Datum) :
    Reader (Recipe Notes) := do
  let r : ScriptedRecipe := {
    displayName := ← .orElse "Scripted" .text (d.field "name")
    options := ← .list readOption (d.field "options")
    scan := ← .optional readPrecondition (d.field "scan")
    visitor := ← readSourceVisitor d
    list := ← .list readRecipe (d.field "children") }
  return r.recipe

/-- Reads a step of a pipeline, given how recipes are read. -/
def readPipelineStepWith (readRecipe : Datum → Reader (Recipe Notes)) (d : Datum) :
    Reader (PipelineStep (Recipe Notes)) := do
  let id ← .text (d.field "id")
  let usual : ChangeProperty := { key := id, newValue := "1" }
  return {
    id
    dependencies := ← .list .text (d.field "deps")
    recipe := ← .orElse (usual.recipe Notes) readRecipe (d.field "recipe") }

/-- Adds a step to a pipeline, or removes one. -/
def readPipelineChangeWith (readRecipe : Datum → Reader (Recipe Notes))
    (p : Pipeline (Recipe Notes)) (d : Datum) :
    Reader (Pipeline (Recipe Notes)) := do
  match d.field "remove" with
  | .null => return p.add (← readPipelineStepWith readRecipe d)
  | id => return p.remove (← .text id)

/-- Reads a pipeline, given how recipes are read. -/
def readPipelineWith (readRecipe : Datum → Reader (Recipe Notes)) (d : Datum) :
    Reader (Pipeline (Recipe Notes)) := do
  let steps ← .list pure (d.field "steps")
  steps.foldlM (readPipelineChangeWith readRecipe) { name := ← .textOr (d.field "name") }

/-- Reads a recipe that is nested less deeply than some number. -/
def readRecipeTo : Nat → Datum → Reader (Recipe Notes)
  | 0, _ => .expected "recipe"
  | n + 1, d => do
    let options := d.field "options"
    match ← .text (d.field "type") with
    | "delete_argument" => return (← orOptions (DeleteArgument.ofDatum? options)).recipe Notes
    | "find_methods" => return (← orOptions (FindCalls.ofDatum? options)).recipe Notes
    | "change_property" => return (← orOptions (ChangeProperty.ofDatum? options)).recipe Notes
    | "bare" => return bareRecipe
    | "pipeline" => return (← readPipelineWith (readRecipeTo n) d).recipe
    | "scripted" => readScriptedWith (readRecipeTo n) d
    | word => .unknown "recipe" word

/-- Reads a recipe. -/
def readRecipe (d : Datum) : Reader (Recipe Notes) := readRecipeTo d.depth d

/-! ### Runs -/

/-- Reads the settings of a run; without any, files are visited one after the other. -/
def readRunConfig (d : Datum) : Reader RunConfig :=
  .orElse .sequential (fun d => orOptions (RunConfig.ofDatum? d)) d

/-- Removes every import that may be superfluous. -/
def dropImports : ImportRemover where
  removeUnused unit names :=
    .setting unit { unit with imports := unit.imports.filter fun p => p.element.typeName ∉ names }

/-- Reads what removes imports. -/
def readRemover : Datum → Reader ImportRemover :=
  .orElse .keep fun
    | .text "drop" => return dropImports
    | _ => return .keep

/-- Writes what happened to a file in a run on some files. -/
def writeSourceResult (withTree : Bool) (sources : List Source) (r : SourceResult) : Datum :=
  .record [("changed", .bool r.isChanged), ("imports", .texts r.importRequests),
    ("same_before", .bool (sources.any (·.isSameTree r.before))),
    ("after", .optional (fun d => summarizeSource withTree d.source) r.after)]

/-- Writes what happened in a run on some files. -/
def writeRunResult (withTree : Bool) (sources : List Source) (r : RunResult) : Datum :=
  .record [("cancelled", .bool r.cancelled), ("changed", .nat r.changed.length),
    ("results", .list (r.results.map (writeSourceResult withTree sources)))]

end Lossless.Interchange
