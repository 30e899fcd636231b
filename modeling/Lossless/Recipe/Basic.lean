import Lossless.Java.MethodPattern
import Lossless.Datum
import Lossless.SourceVisitor

/-!
# Recipes

A recipe is a named change of source files with options. It checks its own options, says
what it is (`Lossless.RecipeDescriptor`) and hands out the visitor that makes the change.
After its own change come the recipes that it lists, so recipes form trees.

Everything that concerns the whole tree goes through it in preorder: the check of all
options (`Lossless.Recipe.allFaults`), the description, and the run of
`Lossless.RecipeRun`.
-/

namespace Lossless

/-! ### Options -/

/-- A problem with an option of a recipe. -/
structure ValidationError where
  /-- The name of the recipe. -/
  recipe : String
  /-- The name of the option. -/
  option : String
  /-- What is wrong with it. -/
  message : String
deriving DecidableEq, Repr

namespace ValidationError

/-- A required option is missing. -/
def required (recipe option : String) : ValidationError := ⟨recipe, option, "is required"⟩

/-- An option is no pattern of methods. -/
def ofPattern (recipe option : String) (e : Java.PatternError) : ValidationError :=
  ⟨recipe, option, "is invalid: " ++ e.message⟩

/-- The text of a problem. -/
def text (e : ValidationError) : String :=
  e.recipe ++ ": option `" ++ e.option ++ "` " ++ e.message

end ValidationError

/-- An option of a recipe, with its value. -/
structure OptionDescriptor where
  /-- Its name. -/
  name : String
  /-- Its name for readers. -/
  displayName : String
  /-- What it is for. -/
  description : String
  /-- A value that would make sense. -/
  sample : Option String := none
  /-- Its value. -/
  value : Datum
  /-- Does it have to have a value? -/
  required : Bool := true

/-- Does an option have a value? A blank text is none. -/
def OptionDescriptor.isSet (o : OptionDescriptor) : Bool :=
  match o.value with
  | .null => false
  | .text s => !s.toList.all Text.isBlank
  | _ => true

/-- The required options without a value. -/
def missingOptions (recipe : String) (options : List OptionDescriptor) : List ValidationError :=
  (options.filter fun o => o.required && !o.isSet).map fun o => .required recipe o.name

/-- All that is wrong with an option that is to be a pattern of methods. -/
def patternFaults (recipe option pattern : String) : List ValidationError :=
  (Java.MethodPattern.check pattern).faults.map (.ofPattern recipe option)

/-! ### Recipes -/

variable {ω : Type}

/-- What a recipe is and does by itself. -/
structure Procedure (ω : Type := Unit) where
  /-- Its name, the same whatever the options are. -/
  name : String
  /-- Its name for readers. -/
  displayName : String
  /-- What it does. -/
  description : String
  /-- Its name together with its options. -/
  instanceName : String := displayName
  /-- Its options. -/
  options : List OptionDescriptor := []
  /-- What is wrong with the options. -/
  faults : List ValidationError := missingOptions name options
  /-- What it does to a file. -/
  visitor : SourceVisitor ω := .noop

/-- A recipe, with the recipes that come after it. -/
inductive Recipe (ω : Type := Unit) where
  /-- A recipe is what it does by itself, and a list of recipes. -/
  | mk (procedure : Procedure ω) (list : List (Recipe ω))

/-- What a recipe is. -/
inductive RecipeDescriptor where
  /-- A recipe is described by its name, display name, description and options, and by the
  recipes that it lists. -/
  | mk (name displayName description : String) (options : List OptionDescriptor)
    (list : List RecipeDescriptor)

namespace Recipe

/-- What a recipe does by itself. -/
def procedure : Recipe ω → Procedure ω
  | .mk p _ => p

/-- The recipes that come after it. -/
def list : Recipe ω → List (Recipe ω)
  | .mk _ rs => rs

mutual

/-- What is wrong with the options of a recipe and of all recipes below it. -/
def allFaults : Recipe ω → List ValidationError
  | .mk p list => p.faults ++ listFaults list

/-- What is wrong with the options of some recipes and of all recipes below them. -/
def listFaults : List (Recipe ω) → List ValidationError
  | [] => []
  | r :: rs => allFaults r ++ listFaults rs

end

mutual

/-- The description of a recipe. -/
def descriptor : Recipe ω → RecipeDescriptor
  | .mk p list => .mk p.name p.displayName p.description p.options (listDescriptors list)

/-- The descriptions of some recipes. -/
def listDescriptors : List (Recipe ω) → List RecipeDescriptor
  | [] => []
  | r :: rs => descriptor r :: listDescriptors rs

end

mutual

/-- The procedures of a recipe and of all recipes below it, in the order in which they
run. -/
def procedures : Recipe ω → List (Procedure ω)
  | .mk p list => p :: listProcedures list

/-- The procedures of some recipes and of all recipes below them. -/
def listProcedures : List (Recipe ω) → List (Procedure ω)
  | [] => []
  | r :: rs => procedures r ++ listProcedures rs

end

end Recipe

end Lossless
