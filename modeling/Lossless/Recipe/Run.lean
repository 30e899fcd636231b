import Lossless.Recipe.Options
import Lossless.Recipe.Pipeline

/-!
# Running recipes

A run visits every file with the recipe and with all recipes below it, each file in a
context of its own; only cancellation and the answers of preconditions are shared
(`Lossless.Context`). Before that all options are checked, and nothing is visited if any
of them is wrong. When a run is cancelled the recipes that would come next are skipped.

Recipes do not remove imports, they only say which may be superfluous. An import remover
gets to see the file and these names in the end.

A file that comes through all recipes untouched is the very tree that went in, which cannot be
seen from the tree itself: it could have been edited back and forth. So a run keeps track of
whether a file was edited (`Lossless.Draft`).
-/

namespace Lossless

/-! ### Settings -/

/-- The settings of a run. -/
structure RunConfig where
  /-- May files be visited at the same time? Results do not depend on it. -/
  parallel : Bool := true
  /-- How many files at most. -/
  maxThreads : Option UInt64 := none
  /-- Is a cancelled run an error? -/
  failOnCancel : Bool := true
deriving DecidableEq, Repr

namespace RunConfig

/-- One file after the other. -/
def sequential : RunConfig := { parallel := false }

/-- The settings as data. -/
def toDatum (c : RunConfig) : Datum :=
  .record [("parallel", .bool c.parallel),
    ("max_threads", .optional (fun n => .nat n.toNat) c.maxThreads),
    ("fail_on_cancel", .bool c.failOnCancel)]

/-- The settings for these data; what is missing has its default. -/
def ofDatum? (d : Datum) : Option RunConfig := do
  match ← Options.fields? ["parallel", "max_threads", "fail_on_cancel"] d with
  | [parallel, maxThreads, failOnCancel] =>
    return {
      parallel := ← Options.orDefault true Options.flag? parallel
      maxThreads := ← Options.orDefault none Options.indexOrNull? maxThreads
      failOnCancel := ← Options.orDefault true Options.flag? failOnCancel }
  | _ => none

end RunConfig

/-- Decides which of some imports of a file to remove. -/
structure ImportRemover where
  /-- What becomes of a file without imports that are not needed. -/
  removeUnused : Java.CompilationUnit Java.Tree → List String →
    Update (Java.CompilationUnit Java.Tree)

/-- Removes no import. -/
def ImportRemover.keep : ImportRemover := ⟨fun _ _ => .same⟩

/-! ### Results -/

/-- Why there is no result. -/
inductive RunError where
  /-- Options are wrong. -/
  | validation (errors : List ValidationError)
  /-- The run was cancelled. -/
  | cancelled
  /-- Steps of a pipeline depend on each other. -/
  | cycle (id : String)
deriving DecidableEq, Repr

/-- The text of an error. -/
def RunError.message : RunError → String
  | .validation errors =>
    "Recipe validation failed with " ++ toString errors.length ++ " error(s)"
  | .cancelled => "Recipe run was cancelled"
  | .cycle id => cycleMessage id

/-- A file in the course of a run. -/
structure Draft where
  /-- The file as it is. -/
  source : Source
  /-- Is it another tree than the one with which the run began? -/
  edited : Bool := false

/-- The file after it was visited. -/
def Draft.revise (d : Draft) : Update Source → Draft
  | .same => d
  | .new s => { source := s, edited := true }

/-- What happened to a file. -/
structure SourceResult where
  /-- The file before. -/
  before : Source
  /-- The file after, unless it was deleted. -/
  after : Option Draft
  /-- The imports that may be superfluous. -/
  importRequests : List String

/-- Is the file another one now, or deleted? -/
def SourceResult.isChanged (r : SourceResult) : Bool := r.after.all (·.edited)

/-- What happened to all files. -/
structure RunResult where
  /-- The results for the files, in the order of the files. -/
  results : List SourceResult
  /-- Was the run cancelled? -/
  cancelled : Bool

/-- The files that changed. -/
def RunResult.changed (r : RunResult) : List SourceResult := r.results.filter (·.isChanged)

/-! ### Running -/

variable {ω : Type}

/-- What a visit makes of a file. One that is not supported stays as it is. -/
def Visited.outcome (d : Draft) : Visited → Option Draft
  | .tree w => some (d.revise w)
  | .deleted => none
  | .unsupported => some d

/-- Applies a procedure to a file that was not deleted, unless the run was cancelled. -/
def Procedure.apply (p : Procedure ω) : Option Draft → ContextM ω (Option Draft)
  | none => return none
  | some d => do
    if (← get).isCancelled then return some d else return (← p.visitor d.source).outcome d

namespace Recipe

mutual

/-- Applies a recipe and all recipes below it to a file. -/
def apply : Recipe ω → Option Draft → ContextM ω (Option Draft)
  | .mk p list, d => do applyList list (← p.apply d)

/-- Applies some recipes, and all recipes below them, to a file. -/
def applyList : List (Recipe ω) → Option Draft → ContextM ω (Option Draft)
  | [], d => return d
  | r :: rs, d => do applyList rs (← apply r d)

end

end Recipe

/-- A recipe with what it takes to run it. -/
structure RecipeRun (ω : Type := Unit) where
  /-- The recipe. -/
  recipe : Recipe ω
  /-- The settings. -/
  config : RunConfig := {}
  /-- What removes imports. -/
  remover : ImportRemover := .keep

namespace RecipeRun

/-- Removes imports from a file, if there are any that may be superfluous. -/
def cleanUp (r : RecipeRun ω) (names : List String) (d : Draft) : Draft :=
  match d.source with
  | .java unit =>
    if names.isEmpty then d else d.revise ((r.remover.removeUnused unit names).map .java)
  | _ => d

/-- Runs the recipe on a file, in a fresh context. -/
def runSource (r : RecipeRun ω) (before : Source) (shared : Shared ω) :
    Except Failure (SourceResult × Shared ω) := do
  let (after, c) ← (r.recipe.apply (some { source := before })).run { shared }
  let (importRequests, c) := c.takeImportRequests
  return ({ before, after := after.map (r.cleanUp importRequests), importRequests }, c.shared)

/-- Runs the recipe on some files. -/
def runSources (r : RecipeRun ω) :
    List Source → Shared ω → Except Failure (List SourceResult × Shared ω)
  | [], shared => return ([], shared)
  | s :: rest, shared => do
    let (result, shared) ← r.runSource s shared
    let (results, shared) ← r.runSources rest shared
    return (result :: results, shared)

/-- Runs the recipe on some files, if its options are right. -/
def run (r : RecipeRun ω) (sources : List Source) (shared : Shared ω) :
    Except Failure (Except RunError RunResult × Shared ω) :=
  match r.recipe.allFaults with
  | e :: es => return (.error (.validation (e :: es)), shared)
  | [] => do
    let (results, shared) ← r.runSources sources shared
    if shared.cancelled && r.config.failOnCancel then return (.error .cancelled, shared)
    else return (.ok { results, cancelled := shared.cancelled }, shared)

end RecipeRun

end Lossless
